/-!
This module contains the reasons why an analysis gives no index. They are expected outcomes, each with a text
that says what to do about it.
-/

namespace ApiSurface

/--
Why there is no index.
-/
inductive Failure where
  /-- No toolchain can be used. -/
  | unavailable (language reason remedy : String)
  /-- The analyzer ran too long; the time is in milliseconds. -/
  | timeout (tool : String) (after : Nat)
  | cancelled (tool : String)
  /-- Something has to be built first. -/
  | artifactMissing (path remedy : String)
  /-- The analyzer's output is no index. -/
  | malformedOutput (reason : String)
  | extraction (reason : String)
  | invalidTarget (reason : String)
deriving DecidableEq, Repr

/--
The text of a failure. Times are given in whole seconds.
-/
def Failure.message : Failure → String
  | unavailable language reason remedy => language ++ " toolchain unavailable: " ++ reason ++ ". " ++ remedy
  | timeout tool after => tool ++ " timed out after " ++ toString (after / 1000) ++ "s and was terminated"
  | cancelled tool => tool ++ " was cancelled"
  | artifactMissing path remedy => "artifact not found at " ++ path ++ " - " ++ remedy
  | malformedOutput reason => "malformed analyzer output: " ++ reason
  | extraction reason => "extraction failed: " ++ reason
  | invalidTarget reason => "invalid target: " ++ reason

end ApiSurface
