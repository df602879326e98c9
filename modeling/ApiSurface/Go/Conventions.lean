import ApiSurface.Extraction.Conventions

/-!
This module contains what a Go type says about its place in a hierarchy.
-/

namespace ApiSurface.Go

/--
Embedded types from outside the tree that are interfaces.
-/
def interfaceParents : List String :=
  ["error", "io.Reader", "io.Writer", "io.Closer", "io.ReadCloser", "io.WriteCloser", "io.ReadWriter",
   "fmt.Stringer", "context.Context", "sort.Interface"]

/--
The method that every error has: no parameters and a string as its result.
-/
def isErrorMethod (m : Member) : Bool :=
  m.name == "Error" && m.params.isEmpty && m.ret == some "string"

/--
How Go writes its type hierarchy. A package of the standard library has no dot in its first segment.
-/
def conventions : Conventions where
  parentsAreExplicit := false
  externalParentIsInterface := interfaceParents.contains
  isErrorRoot := fun name => name == "error"
  isErrorType := fun t => t.members.any isErrorMethod
  isStdlib := fun package => !((package.toList.takeWhile (· != '/')).contains '.')

end ApiSurface.Go
