import ApiSurface.Extraction.Conventions
import ApiSurface.Text.Name

/-!
This module contains what a Java type says about its place in a hierarchy: the throwables of the platform,
its packages, and its common interfaces.
-/

namespace ApiSurface.Java

open Text

/--
The throwables of the platform that libraries commonly extend.
-/
def throwables : List String :=
  ["Throwable", "Exception", "RuntimeException", "Error", "IllegalArgumentException", "IllegalStateException",
   "NullPointerException", "IndexOutOfBoundsException", "ArrayIndexOutOfBoundsException", "ClassCastException",
   "UnsupportedOperationException", "NoSuchElementException", "IOException", "FileNotFoundException",
   "EOFException", "UncheckedIOException", "InterruptedException", "TimeoutException", "ExecutionException",
   "CompletionException"]

/--
The packages in which they are.
-/
def throwablePackages : List String :=
  ["java.lang", "java.io", "java.util", "java.util.concurrent"]

/--
Interfaces of the platform.
-/
def interfaceParents : List String :=
  ["AutoCloseable", "Closeable", "Serializable", "Comparable", "Iterable", "Runnable", "Callable", "Supplier",
   "Function", "Consumer", "Collection", "List", "Map", "Set"]

/--
Whether a name, plain or with its package, is a throwable of the platform.
-/
def isThrowable (name : String) : Bool :=
  match splitLastDot name with
  | some (package, simple) => throwables.contains simple && throwablePackages.contains package
  | none => throwables.contains name

/--
How Java writes its type hierarchy.
-/
def conventions : Conventions where
  parentsAreExplicit := true
  externalParentIsInterface := fun parent => interfaceParents.contains (bareName parent)
  isErrorRoot := isThrowable
  isErrorType := fun _ => false
  isStdlib := fun package => ["java.", "javax.", "jdk.", "sun."].any (fun start => package.startsWith start)

end ApiSurface.Java
