import ApiSurface.Text.Blank

/-!
This module contains the one-line summary of a documentation text.
-/

namespace ApiSurface.Text

/--
What stands for the rest of a line that was cut.
-/
def ellipsis : String := "..."

/--
The first line that is not blank, trimmed. A line of more than `max` characters is cut so that it
fits together with an ellipsis.
-/
def summary (doc : String) (max : Nat) : Option String :=
  match ((lines doc).map trim).find? (fun line => !line.isEmpty) with
  | none => none
  | some line =>
    if line.length ≤ max then some line
    else some (trimEnd (String.ofList (line.toList.take (max - 3))) ++ ellipsis)

end ApiSurface.Text
