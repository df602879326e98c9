/-!
This module contains the quoted form in which messages show a text: control characters, invisible
characters, quotes and backslashes are escaped, so that the form is one line of visible characters.
-/

namespace ApiSurface.Text

/--
The ranges of code points that a message shows by number: controls, formats, separators, private use and
marks that attach to the character before them.
-/
def invisibleRanges : List (Nat × Nat) :=
  [(0x00, 0x1F), (0x7F, 0xA0), (0xAD, 0xAD), (0x300, 0x36F), (0x483, 0x489), (0x591, 0x5BD), (0x5BF, 0x5BF),
   (0x5C1, 0x5C2), (0x5C4, 0x5C5), (0x5C7, 0x5C7), (0x600, 0x605), (0x610, 0x61A), (0x61C, 0x61C),
   (0x64B, 0x65F), (0x670, 0x670), (0x6D6, 0x6DD), (0x70F, 0x70F), (0x1680, 0x1680), (0x180B, 0x180F),
   (0x1AB0, 0x1AFF), (0x1DC0, 0x1DFF), (0x2000, 0x200F), (0x2028, 0x202F), (0x205F, 0x206F),
   (0x20D0, 0x20F0), (0x3000, 0x3000), (0x302A, 0x302F), (0x3099, 0x309A), (0xD800, 0xF8FF),
   (0xFE00, 0xFE0F), (0xFE20, 0xFE2F), (0xFEFF, 0xFEFF), (0xFFF0, 0xFFFB), (0xFFFE, 0xFFFF),
   (0xE0000, 0x10FFFF)]

/--
Whether a message shows the character as it is.
-/
def isVisible (c : Char) : Bool :=
  !invisibleRanges.any (fun (low, high) => low ≤ c.toNat && c.toNat ≤ high)

/--
The lower-case hexadecimal digits of a number.
-/
def hexText (n : Nat) : String :=
  String.ofList (Nat.toDigits 16 n)

/--
The form of one character inside quotes.
-/
def quotedChar (c : Char) : String :=
  if c == '"' then "\\\""
  else if c == '\\' then "\\\\"
  else if c == '\n' then "\\n"
  else if c == '\r' then "\\r"
  else if c == '\t' then "\\t"
  else if c.toNat == 0 then "\\0"
  else if isVisible c then c.toString
  else "\\u\x7b" ++ hexText c.toNat ++ "\x7d"

/--
The quoted form of a text.
-/
def quoted (s : String) : String :=
  "\"" ++ String.join (s.toList.map quotedChar) ++ "\""

/--
The quoted form of a single character.
-/
def quotedAlone (c : Char) : String :=
  if c == '\'' then "'\\''"
  else if c == '"' then "'\"'"
  else "'" ++ quotedChar c ++ "'"

end ApiSurface.Text
