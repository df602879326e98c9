import ApiSurface.Toml.Basic

/-!
This module contains the reader of TOML documents. A text that breaks a rule of the format has no document.
-/

namespace ApiSurface.Toml

/--
Reads something from the front of a text and leaves the rest.
-/
abbrev Reader := StateT (List Char) Option

namespace Reader

/--
The next character, which stays in the text.
-/
def peek? : Reader (Option Char) :=
  return (← get).head?

/--
Read a character that satisfies `p`.
-/
def satisfy (p : Char → Bool) : Reader Char := do
  match ← get with
  | c :: rest => if p c then do set rest; return c else failure
  | [] => failure

/--
Read this text.
-/
def exactly (s : String) : Reader Unit := do
  let cs ← get
  if s.toList.isPrefixOf cs then set (cs.drop s.length) else failure

/--
Whether the text begins like this; if so it is read.
-/
def accept (s : String) : Reader Bool :=
  (exactly s *> pure true) <|> pure false

/--
Read as many characters as satisfy `p`.
-/
def run (p : Char → Bool) : Reader (List Char) := do
  let cs ← get
  set (cs.dropWhile p)
  return cs.takeWhile p

/--
Blanks on a line.
-/
def blanks : Reader Unit :=
  discard (run (fun c => c == ' ' || c == '\t'))

/--
Whether a character may stand in a comment or a literal text.
-/
def isPrintable (c : Char) : Bool :=
  c == '\t' || (c.toNat ≥ 0x20 && c.toNat != 0x7F)

/--
A comment, if there is one.
-/
def comment : Reader Unit := do
  if ← accept "#" then discard (run isPrintable)

/--
A line end.
-/
def lineEnd : Reader Unit :=
  exactly "\n" <|> exactly "\r\n"

/--
The rest of a line: blanks, a comment, and the line's or the text's end.
-/
def restOfLine : Reader Unit := do
  blanks
  comment
  if (← get).isEmpty then return ()
  lineEnd

/--
Blanks, comments and line ends.
-/
def spaces : Nat → Reader Unit
  | 0 => return ()
  | fuel + 1 => do
    blanks
    comment
    match ← optional lineEnd with
    | some _ => spaces fuel
    | none => return ()

/--
A code point written with this many hexadecimal digits.
-/
def codePoint (digits : Nat) : Reader Char := do
  let cs ← get
  let ds := cs.take digits
  if ds.length != digits || !ds.all isHex then failure
  set (cs.drop digits)
  let n := ds.foldl (fun n d => n * 16 + hexValue d) 0
  if n.isValidChar then return Char.ofNat n else failure
where
  isHex (c : Char) : Bool :=
    c.isDigit || ('a' ≤ c && c ≤ 'f') || ('A' ≤ c && c ≤ 'F')
  hexValue (c : Char) : Nat :=
    if c.isDigit then c.toNat - 48 else if c ≥ 'a' then c.toNat - 87 else c.toNat - 55

/--
What follows a backslash.
-/
def escape : Reader Char := do
  match ← satisfy (fun _ => true) with
  | 'b' => return '\x08'
  | 't' => return '\t'
  | 'n' => return '\n'
  | 'f' => return '\x0c'
  | 'r' => return '\r'
  | '"' => return '"'
  | '\\' => return '\\'
  | 'u' => codePoint 4
  | 'U' => codePoint 8
  | _ => failure

/--
The characters of a text between double quotes, whose opening one is behind.
-/
def basicText : Nat → Reader (List Char)
  | 0 => failure
  | fuel + 1 => do
    match ← satisfy isPrintable with
    | '"' => return []
    | '\\' => return (← escape) :: (← basicText fuel)
    | c => return c :: (← basicText fuel)

/--
The characters of a text between single quotes, whose opening one is behind.
-/
def literalText : Reader (List Char) := do
  let cs ← run (fun c => isPrintable c && c != '\'')
  exactly "'"
  return cs

/--
The end of a text over several lines: the closing quotes, in front of which up to two more may stand.
-/
def closingQuotes (quote : Char) : Reader (List Char) := do
  let n := ((← get).takeWhile (· == quote)).length
  if n < 3 then failure
  let extra := min (n - 3) 2
  set ((← get).drop (3 + extra))
  return List.replicate extra quote

/--
The characters of a text over several lines. With `escapes` a backslash is special: at the end of a line it
joins the text that follows.
-/
def longText (quote : Char) (escapes : Bool) : Nat → Reader (List Char)
  | 0 => failure
  | fuel + 1 => do
    match ← optional (closingQuotes quote) with
    | some extra => return extra
    | none =>
      match ← optional lineEnd with
      | some _ => return '\n' :: (← longText quote escapes fuel)
      | none =>
        let c ← satisfy isPrintable
        if c == '\\' && escapes then
          match ← optional (do blanks; lineEnd) with
          | some _ =>
            discard (run (fun c => c == ' ' || c == '\t' || c == '\n' || c == '\r'))
            longText quote escapes fuel
          | none => return (← escape) :: (← longText quote escapes fuel)
        else return c :: (← longText quote escapes fuel)

/--
A quoted text on one line.
-/
def shortText : Reader String := do
  if ← accept "\"" then return String.ofList (← basicText ((← get).length + 1))
  exactly "'"
  return String.ofList (← literalText)

/--
A quoted text.
-/
def quotedText : Reader String := do
  if ← accept "\"\"\"" then
    discard (optional lineEnd)
    return String.ofList (← longText '"' true ((← get).length + 1))
  if ← accept "'''" then
    discard (optional lineEnd)
    return String.ofList (← longText '\'' false ((← get).length + 1))
  shortText

/--
A part of a key.
-/
def keyPart : Reader String := do
  match ← peek? with
  | some '"' => shortText
  | some '\'' => shortText
  | _ =>
    let cs ← run (fun c => c.isAlphanum || c == '_' || c == '-')
    if cs.isEmpty then failure
    return String.ofList cs

/--
A key: parts with dots between them.
-/
def key : Nat → Reader (List String)
  | 0 => failure
  | fuel + 1 => do
    let p ← keyPart
    blanks
    if ← accept "." then
      blanks
      return p :: (← key fuel)
    return [p]

/--
The digits of a number in a base; single underscores may divide them.
-/
def digits (p : Char → Bool) (cs : List Char) : Option (List Char) :=
  if cs.isEmpty || cs.head? == some '_' || cs.getLast? == some '_' then none
  else if (cs.zip (cs.drop 1)).any (fun (a, b) => a == '_' && b == '_') then none
  else
    let ds := cs.filter (· != '_')
    if ds.all p then some ds else none

/--
The value of digits.
-/
def valueOf (base : Nat) (ds : List Char) : Nat :=
  ds.foldl (fun n d => n * base + codePoint.hexValue d) 0

/--
Whether a number fits into 64 bits with a sign.
-/
def fits (n : Int) : Bool :=
  decide (-9223372036854775808 ≤ n) && decide (n ≤ 9223372036854775807)

/--
A whole number, as it is written.
-/
def whole? (cs : List Char) : Option Int :=
  let based (base : Nat) (p : Char → Bool) (cs : List Char) : Option Int :=
    (digits p cs).bind (fun ds => if fits (valueOf base ds) then some (valueOf base ds : Int) else none)
  match cs with
  | '0' :: 'x' :: rest => based 16 codePoint.isHex rest
  | '0' :: 'o' :: rest => based 8 (fun c => '0' ≤ c && c ≤ '7') rest
  | '0' :: 'b' :: rest => based 2 (fun c => c == '0' || c == '1') rest
  | _ =>
    let (negative, rest) :=
      match cs with
      | '-' :: rest => (true, rest)
      | '+' :: rest => (false, rest)
      | _ => (false, cs)
    match digits Char.isDigit rest with
    | none => none
    | some ds =>
      if ds.length > 1 && ds.head? == some '0' then none
      else
        let n : Int := if negative then -(valueOf 10 ds : Int) else valueOf 10 ds
        if fits n then some n else none

/--
Whether characters are a number with a fraction or an exponent.
-/
def isFloat (cs : List Char) : Bool :=
  let rest := match cs with
    | '-' :: rest => rest
    | '+' :: rest => rest
    | _ => cs
  if rest == "inf".toList || rest == "nan".toList then true
  else
    let mantissa := rest.takeWhile (fun c => c != 'e' && c != 'E')
    let exponent := rest.drop mantissa.length
    let front := mantissa.takeWhile (· != '.')
    let back := mantissa.drop front.length
    let frontOk := match digits Char.isDigit front with
      | some ds => ds.length == 1 || ds.head? != some '0'
      | none => false
    let backOk := match back with
      | [] => true
      | _ :: ds => (digits Char.isDigit ds).isSome
    let exponentOk := match exponent with
      | [] => true
      | _ :: '-' :: ds => (digits Char.isDigit ds).isSome
      | _ :: '+' :: ds => (digits Char.isDigit ds).isSome
      | _ :: ds => (digits Char.isDigit ds).isSome
    frontOk && backOk && exponentOk && !(back.isEmpty && exponent.isEmpty)

/--
Whether characters have the shape of a pattern in which `0` stands for a digit.
-/
def hasShape (shape : String) (cs : List Char) : Bool :=
  shape.length == cs.length &&
    (shape.toList.zip cs).all (fun (s, c) => if s == '0' then c.isDigit else s == c)

/--
The number at a place of two digits.
-/
def pairAt (i : Nat) (cs : List Char) : Nat :=
  valueOf 10 ((cs.drop i).take 2)

/--
Whether characters are a date.
-/
def isDate (cs : List Char) : Bool :=
  hasShape "0000-00-00" cs &&
    (let month := pairAt 5 cs
     let day := pairAt 8 cs
     let year := valueOf 10 (cs.take 4)
     let leap := (year % 4 == 0 && year % 100 != 0) || year % 400 == 0
     let last := if month == 2 then (if leap then 29 else 28)
       else if [4, 6, 9, 11].contains month then 30 else 31
     1 ≤ month && month ≤ 12 && 1 ≤ day && day ≤ last)

/--
Whether characters are a time, without an offset.
-/
def isTime (cs : List Char) : Bool :=
  hasShape "00:00:00" (cs.take 8) && pairAt 0 cs < 24 && pairAt 3 cs < 60 && pairAt 6 cs ≤ 60 &&
    match cs.drop 8 with
    | [] => true
    | '.' :: ds => !ds.isEmpty && ds.all Char.isDigit
    | _ => false

/--
Whether characters are a time that may have an offset.
-/
def isTimeWithOffset (cs : List Char) : Bool :=
  match cs.getLast? with
  | some 'Z' => isTime cs.dropLast
  | some 'z' => isTime cs.dropLast
  | _ =>
    let offset := cs.drop (cs.length - 6)
    isTime cs ||
      ((hasShape "+00:00" offset || hasShape "-00:00" offset) && pairAt 1 offset < 24 && pairAt 4 offset < 60 &&
        isTime (cs.take (cs.length - 6)))

/--
Whether characters are a date, a time, or both.
-/
def isMoment (cs : List Char) : Bool :=
  isDate cs || isTime cs ||
    (isDate (cs.take 10) && (match cs.drop 10 with
      | c :: rest => (c == 'T' || c == 't' || c == ' ') && isTimeWithOffset rest
      | [] => false))

/--
A value that is not quoted and has no brackets.
-/
def plainValue : Reader Toml := do
  let isPlain (c : Char) : Bool := c.isAlphanum || ['+', '-', '_', '.', ':'].contains c
  let cs ← run isPlain
  let cs ←
    if isDate cs && (← get).head? == some ' ' && ((← get).drop 1).head?.any Char.isDigit then do
      exactly " "
      let more ← run isPlain
      pure (cs ++ ' ' :: more)
    else pure cs
  let written := String.ofList cs
  if written == "true" then return .bool true
  if written == "false" then return .bool false
  match whole? cs with
  | some n => return .int n
  | none =>
    if isFloat cs then return .float written
    else if isMoment cs then return .moment written
    else failure

/--
The values of an array, whose opening bracket is behind.
-/
def items (value : Reader Toml) : Nat → Reader (List Toml)
  | 0 => failure
  | fuel + 1 => do
    spaces ((← get).length + 1)
    if ← accept "]" then return []
    let v ← value
    spaces ((← get).length + 1)
    if ← accept "," then return v :: (← items value fuel)
    exactly "]"
    return [v]

/--
The entries of a table in braces, whose opening one is behind. They stand on one line.
-/
def fields (value : Reader Toml) : Nat → List (String × Toml) → Reader (List (String × Toml))
  | 0, _ => failure
  | fuel + 1, es => do
    blanks
    let path ← key ((← get).length + 1)
    blanks
    exactly "="
    blanks
    let v ← value
    match path.getLast? with
    | none => failure
    | some k =>
      match assign es path.dropLast k v with
      | none => failure
      | some es =>
        blanks
        if ← accept "," then return ← fields value fuel es
        exactly "\x7d"
        return es

/--
A value; arrays and tables are nested at most so deep.
-/
def value : Nat → Reader Toml
  | 0 => failure
  | depth + 1 => do
    match ← peek? with
    | some '"' => return .str (← quotedText)
    | some '\'' => return .str (← quotedText)
    | some '[' =>
      exactly "["
      return .arr (← items (value depth) ((← get).length + 1))
    | some '\x7b' =>
      exactly "\x7b"
      blanks
      if ← accept "\x7d" then return .table .braces []
      return .table .braces (← fields (value depth) ((← get).length + 1) [])
    | _ => plainValue

/--
A document while it is read: its entries and the latest header.
-/
structure Document where
  entries : List (String × Toml) := []
  header : List String := []

/--
One line: a header, an assignment, or nothing.
-/
def line (d : Document) : Reader Document := do
  blanks
  let length := (← get).length + 1
  if ← accept "[[" then
    blanks
    let path ← key length
    exactly "]]"
    match atHeader openRepeated path d.entries with
    | none => failure
    | some es =>
      restOfLine
      return ⟨es, path⟩
  if ← accept "[" then
    blanks
    let path ← key length
    exactly "]"
    match atHeader openTable path d.entries with
    | none => failure
    | some es =>
      restOfLine
      return ⟨es, path⟩
  match ← peek? with
  | none => return d
  | some c =>
    if c == '#' || c == '\n' || c == '\r' then
      restOfLine
      return d
    let path ← key length
    exactly "="
    blanks
    let v ← value length
    match path.getLast? with
    | none => failure
    | some k =>
      match assignBelow d.header path.dropLast k v d.entries with
      | none => failure
      | some es =>
        restOfLine
        return { d with entries := es }

/--
All lines.
-/
def lines : Nat → Document → Reader Document
  | 0, _ => failure
  | fuel + 1, d => do
    if (← get).isEmpty then return d
    lines fuel (← line d)

end Reader

/--
The entries of a document, if the text is one.
-/
def parse? (s : String) : Option Toml :=
  let cs := s.toList
  let cs := if cs.head?.any (fun c => c.toNat == 0xFEFF) then cs.drop 1 else cs
  (StateT.run (Reader.lines (cs.length + 1) {}) cs).map (fun (d, _) => .table .header d.entries)

end ApiSurface.Toml
