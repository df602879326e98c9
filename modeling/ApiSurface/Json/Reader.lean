import ApiSurface.Json.Basic
import ApiSurface.Decimal.Shortest

/-!
This module contains the reading of JSON texts into trees. Reading never fails: a text that is not well
formed is read up to its first fault.
-/

namespace ApiSurface.Json.Reader

/--
The blanks between the tokens of a JSON text.
-/
def isSpace (c : Char) : Bool :=
  c == ' ' || c == '\n' || c == '\t' || c == '\r'

/--
The text from its first token on.
-/
def skip (cs : List Char) : List Char :=
  cs.dropWhile isSpace

/--
The value of a hexadecimal digit.
-/
def hexDigit? (c : Char) : Option Nat :=
  if '0' ≤ c && c ≤ '9' then some (c.toNat - '0'.toNat)
  else if 'a' ≤ c && c ≤ 'f' then some (c.toNat - 'a'.toNat + 10)
  else if 'A' ≤ c && c ≤ 'F' then some (c.toNat - 'A'.toNat + 10)
  else none

/--
Four hexadecimal digits.
-/
def hex4 (cs : List Char) : Except Fault (Nat × List Char) :=
  match cs with
  | a :: b :: c :: d :: rest =>
    match hexDigit? a, hexDigit? b, hexDigit? c, hexDigit? d with
    | some a, some b, some c, some d => .ok (((a * 16 + b) * 16 + c) * 16 + d, rest)
    | _, _, _, _ => .error .badEscape
  | _ => .error .endOfString

/--
The character an escape spells, or the fault of an escape that spells none, and what follows it.
-/
structure Escape where
  char : Except Fault Char
  rest : List Char

/--
The escape of a code unit: a character of its own, or a pair of surrogates.
-/
def unitEscape (n : Nat) (rest : List Char) : Except Fault Escape :=
  if 0xDC00 ≤ n && n ≤ 0xDFFF then .ok ⟨.error .loneSurrogate, rest⟩
  else if n < 0xD800 || 0xDBFF < n then .ok ⟨.ok (Char.ofNat n), rest⟩
  else
    match rest with
    | [] => .error .endOfString
    | '\\' :: [] => .error .endOfString
    | '\\' :: 'u' :: after =>
      match hex4 after with
      | .error f => .error f
      | .ok (m, after) =>
        if m < 0xDC00 || 0xDFFF < m then .ok ⟨.error .loneSurrogate, after⟩
        else .ok ⟨.ok (Char.ofNat ((n - 0xD800) * 0x400 + (m - 0xDC00) + 0x10000)), after⟩
    | _ => .ok ⟨.error .surrogateEnd, rest⟩

/--
The escape after a backslash.
-/
def escape (cs : List Char) : Except Fault Escape :=
  match cs with
  | [] => .error .endOfString
  | '"' :: rest => .ok ⟨.ok '"', rest⟩
  | '\\' :: rest => .ok ⟨.ok '\\', rest⟩
  | '/' :: rest => .ok ⟨.ok '/', rest⟩
  | 'b' :: rest => .ok ⟨.ok '\x08', rest⟩
  | 'f' :: rest => .ok ⟨.ok '\x0c', rest⟩
  | 'n' :: rest => .ok ⟨.ok '\n', rest⟩
  | 'r' :: rest => .ok ⟨.ok '\r', rest⟩
  | 't' :: rest => .ok ⟨.ok '\t', rest⟩
  | 'u' :: rest =>
    match hex4 rest with
    | .error f => .error f
    | .ok (n, rest) => unitEscape n rest
  | _ => .error .badEscape

/--
A string as far as it was read: its characters and, if an escape spells none, the fault of the first
such escape.
-/
structure Chars where
  chars : List Char
  fault : Option Fault
  rest : List Char

/--
The characters of a string after its opening quote.
-/
def stringBody : Nat → List Char → Except Fault Chars
  | 0, _ => .error .endOfString
  | fuel + 1, cs =>
    match cs with
    | [] => .error .endOfString
    | '"' :: rest => .ok ⟨[], none, rest⟩
    | '\\' :: rest =>
      match escape rest with
      | .error f => .error f
      | .ok e =>
        match stringBody fuel e.rest with
        | .error f => .error f
        | .ok more =>
          match e.char with
          | .ok c => .ok { more with chars := c :: more.chars }
          | .error f => .ok { more with fault := some f }
    | c :: rest =>
      if c.toNat < 0x20 then .error .controlCharacter
      else
        match stringBody fuel rest with
        | .error f => .error f
        | .ok more => .ok { more with chars := c :: more.chars }

/--
A string after its opening quote.
-/
def string (cs : List Char) : Json × List Char :=
  match stringBody (cs.length + 1) cs with
  | .error f => (.broken f, [])
  | .ok body =>
    match body.fault with
    | some f => (.badStr f, body.rest)
    | none => (.str (String.ofList body.chars), body.rest)

/--
The value of a run of decimal digits.
-/
def digitsValue (ds : List Char) : Nat :=
  ds.foldl (fun n c => n * 10 + (c.toNat - '0'.toNat)) 0

/--
The number with this sign, these digits and this power of ten.
-/
def decimalNumber (negative : Bool) (digits : Nat) (exponent : Int) : Number :=
  let magnitude := exponent + (toString digits).length
  if digits == 0 || magnitude < -330 then .float (if negative then "-0.0" else "0.0")
  else if magnitude > 310 then .outOfRange
  else
    let x : Float := .ofScientific digits (decide (exponent < 0)) exponent.natAbs
    match Decimal.shortest? x.toBits with
    | some text => .float (if negative then "-" ++ text else text)
    | none => .outOfRange

/--
An integer without fraction and exponent.
-/
def integerNumber (negative : Bool) (digits : Nat) : Number :=
  if negative then
    if digits == 0 then .float "-0.0"
    else if digits ≤ Nat.pow 2 63 then .int (-(digits : Int))
    else decimalNumber true digits 0
  else if digits < Nat.pow 2 64 then .int digits
  else decimalNumber false digits 0

/--
The digits after a decimal point.
-/
def fraction (cs : List Char) : Except Fault (List Char × List Char) :=
  match cs.takeWhile Char.isDigit with
  | [] => .error (if cs.isEmpty then .endOfValue else .badNumber)
  | ds => .ok (ds, cs.dropWhile Char.isDigit)

/--
Sign and digits after the mark of an exponent.
-/
def exponent (cs : List Char) : Except Fault (Int × List Char) :=
  let (negative, cs) :=
    match cs with
    | '+' :: rest => (false, rest)
    | '-' :: rest => (true, rest)
    | _ => (false, cs)
  match cs.takeWhile Char.isDigit with
  | [] => .error (if cs.isEmpty then .endOfValue else .badNumber)
  | ds =>
    let n : Int := digitsValue ds
    .ok (if negative then -n else n, cs.dropWhile Char.isDigit)

/--
What follows the integer digits of a number.
-/
def numberTail (negative : Bool) (whole : List Char) (cs : List Char) : Except Fault (Number × List Char) := do
  let isMark (c : Char) : Bool := c == 'e' || c == 'E'
  match cs with
  | '.' :: rest =>
    let (part, rest) ← fraction rest
    let digits := digitsValue (whole ++ part)
    match rest with
    | c :: after =>
      if isMark c then
        let (e, after) ← exponent after
        return (decimalNumber negative digits (e - part.length), after)
      else return (decimalNumber negative digits (-(part.length : Int)), rest)
    | [] => return (decimalNumber negative digits (-(part.length : Int)), rest)
  | c :: after =>
    if isMark c then
      let (e, after) ← exponent after
      return (decimalNumber negative (digitsValue whole) e, after)
    else return (integerNumber negative (digitsValue whole), cs)
  | [] => return (integerNumber negative (digitsValue whole), cs)

/--
A number, after its sign.
-/
def number (negative : Bool) (cs : List Char) : Json × List Char :=
  let result : Except Fault (Number × List Char) :=
    match cs with
    | '0' :: rest =>
      match rest with
      | c :: _ => if c.isDigit then .error .badNumber else numberTail negative ['0'] rest
      | [] => numberTail negative ['0'] rest
    | c :: _ =>
      if c.isDigit then numberTail negative (cs.takeWhile Char.isDigit) (cs.dropWhile Char.isDigit)
      else .error .badNumber
    | [] => .error .badNumber
  match result with
  | .ok (n, rest) => (.num n, rest)
  | .error f => (.broken f, [])

/--
The rest of a word whose first letter decided for `value`.
-/
def word (rest : List Char) (cs : List Char) (value : Json) : Json × List Char :=
  match rest, cs with
  | [], cs => (value, cs)
  | _ :: _, [] => (.broken .endOfValue, [])
  | e :: es, c :: cs => if e == c then word es cs value else (.broken .unknownWord, [])

mutual
/--
The value at the front of a text.
-/
def value (fuel : Nat) (cs : List Char) : Json × List Char :=
  match fuel with
  | 0 => (.broken .endOfValue, [])
  | fuel + 1 =>
    match skip cs with
    | [] => (.broken .endOfValue, [])
    | 'n' :: rest => word ['u', 'l', 'l'] rest .null
    | 't' :: rest => word ['r', 'u', 'e'] rest (.bool true)
    | 'f' :: rest => word ['a', 'l', 's', 'e'] rest (.bool false)
    | '"' :: rest => string rest
    | '-' :: rest => number true rest
    | '[' :: rest =>
      let (items, fault, rest) := items fuel true rest
      (.arr items fault, rest)
    | '{' :: rest =>
      let (entries, fault, rest) := entries fuel true rest
      (.obj entries fault, rest)
    | c :: rest => if c.isDigit then number false (c :: rest) else (.broken .noValue, [])

/--
The elements of a list; `first` says that none was read yet.
-/
def items (fuel : Nat) (first : Bool) (cs : List Char) : List Json × Option Fault × List Char :=
  match fuel with
  | 0 => ([], some .endOfList, [])
  | fuel + 1 =>
    match skip cs with
    | [] => ([], some .endOfList, [])
    | ']' :: rest => ([], none, rest)
    | ',' :: rest =>
      if first then ([.broken .noValue], some .noValue, [])
      else
        match skip rest with
        | [] => ([], some .endOfValue, [])
        | ']' :: _ => ([], some .trailingComma, [])
        | cs => item fuel cs
    | cs => if first then item fuel cs else ([], some .missingListComma, [])

/--
One element and those after it.
-/
def item (fuel : Nat) (cs : List Char) : List Json × Option Fault × List Char :=
  match fuel with
  | 0 => ([], some .endOfList, [])
  | fuel + 1 =>
    let (v, rest) := value fuel cs
    match v.fault? with
    | some f => ([v], some f, [])
    | none =>
      let (vs, fault, rest) := items fuel false rest
      (v :: vs, fault, rest)

/--
The entries of an object; `first` says that none was read yet.
-/
def entries (fuel : Nat) (first : Bool) (cs : List Char) : List (String × Json) × Option Fault × List Char :=
  match fuel with
  | 0 => ([], some .endOfObject, [])
  | fuel + 1 =>
    match skip cs with
    | [] => ([], some .endOfObject, [])
    | '}' :: rest => ([], none, rest)
    | ',' :: rest =>
      if first then ([], some .keyNotString, [])
      else
        match skip rest with
        | [] => ([], some .endOfValue, [])
        | '}' :: _ => ([], some .trailingComma, [])
        | '"' :: rest => entry fuel rest
        | _ => ([], some .keyNotString, [])
    | '"' :: rest => if first then entry fuel rest else ([], some .missingObjectComma, [])
    | _ => ([], some (if first then .keyNotString else .missingObjectComma), [])

/--
One entry, after the quote that opens its key, and those after it.
-/
def entry (fuel : Nat) (cs : List Char) : List (String × Json) × Option Fault × List Char :=
  match fuel with
  | 0 => ([], some .endOfObject, [])
  | fuel + 1 =>
    match string cs with
    | (.str key, rest) =>
      match skip rest with
      | ':' :: rest =>
        let (v, rest) := value fuel rest
        match v.fault? with
        | some f => ([(key, v)], some f, [])
        | none =>
          let (es, fault, rest) := entries fuel false rest
          ((key, v) :: es, fault, rest)
      | [] => ([(key, .broken .endOfObject)], some .endOfObject, [])
      | _ => ([(key, .broken .missingColon)], some .missingColon, [])
    | (.badStr f, _) => ([], some f, [])
    | (.broken f, _) => ([], some f, [])
    | _ => ([], some .keyNotString, [])
end

end Reader

/--
A whole text: its tree, and the fault of anything but blanks after it.
-/
structure Document where
  root : Json
  tail : Option Fault

/--
Read a text.
-/
def Document.read (text : String) : Document :=
  let cs := text.toList
  let (root, rest) := Reader.value (3 * cs.length + 3) cs
  match root.fault? with
  | some _ => ⟨root, none⟩
  | none => ⟨root, if (Reader.skip rest).isEmpty then none else some .trailingCharacters⟩

end ApiSurface.Json
