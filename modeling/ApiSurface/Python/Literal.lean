import ApiSurface.Text.Cut
import ApiSurface.Text.Summary

/-!
This module contains the text of Python literals and of documentation strings.
-/

namespace ApiSurface.Python

/--
The quotes of literals, longer ones first.
-/
def quoteMarks : List String :=
  ["\"\"\"", "'''", "\"", "'"]

/--
What a literal says: its characters without the letters in front and without the quotes. Escapes stay.
-/
def literalValue (raw : String) : String :=
  let body := Text.trimStartWhile (fun c => "rRbBuUfF".toList.contains c) raw
  let inner (quote : String) : Option String := (Text.after? quote body).bind (Text.before? quote)
  (quoteMarks.findSome? inner).getD body

/--
How long a summary of a documentation string may be.
-/
def docLimit : Nat := 153

/--
The summary of the literal that a body begins with.
-/
def documentation (literal : Option String) : Option String :=
  literal.bind (fun raw => Text.summary (literalValue raw) docLimit)

end ApiSurface.Python
