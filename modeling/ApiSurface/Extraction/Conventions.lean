import ApiSurface.Index.Basic

/-!
This module contains what the passes over extracted namespaces need to know of a language.
-/

namespace ApiSurface

/--
How a language writes its type hierarchy.
-/
structure Conventions where
  /-- The language itself says which parents are interfaces. -/
  parentsAreExplicit : Bool
  /-- Whether a parent outside the tree is taken for an interface. -/
  externalParentIsInterface : String → Bool
  /-- Whether a name outside the tree is the root of error types. -/
  isErrorRoot : String → Bool
  /-- Whether a type is an error by what it declares. -/
  isErrorType : TypeEntry → Bool
  /-- Whether a package belongs to the language's standard library. -/
  isStdlib : String → Bool

end ApiSurface
