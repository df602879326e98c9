/-!
This module contains JSON texts as trees. A text that is not well formed has a tree too: it ends at the
place of its first fault, so that a reader of the tree meets the faults of a text in the order in which
they stand.
-/

namespace ApiSurface

/--
What can be wrong with the form of a JSON text.
-/
inductive Json.Fault where
  | endOfList
  | endOfObject
  | endOfString
  | endOfValue
  | missingColon
  | missingListComma
  | missingObjectComma
  | unknownWord
  | noValue
  | badEscape
  | badNumber
  | numberOutOfRange
  | controlCharacter
  | keyNotString
  | loneSurrogate
  | surrogateEnd
  | trailingComma
  | trailingCharacters
deriving DecidableEq, Repr

/--
The sentence that reports a fault.
-/
def Json.Fault.message : Json.Fault → String
  | endOfList => "EOF while parsing a list"
  | endOfObject => "EOF while parsing an object"
  | endOfString => "EOF while parsing a string"
  | endOfValue => "EOF while parsing a value"
  | missingColon => "expected `:`"
  | missingListComma => "expected `,` or `]`"
  | missingObjectComma => "expected `,` or `\x7d`"
  | unknownWord => "expected ident"
  | noValue => "expected value"
  | badEscape => "invalid escape"
  | badNumber => "invalid number"
  | numberOutOfRange => "number out of range"
  | controlCharacter => "control character (\\u0000-\\u001F) found while parsing a string"
  | keyNotString => "key must be a string"
  | loneSurrogate => "lone leading surrogate in hex escape"
  | surrogateEnd => "unexpected end of hex escape"
  | trailingComma => "trailing comma"
  | trailingCharacters => "trailing characters"

/--
A number: an integer of at most 64 bits, any other number by its shortest decimal text, or one that is
too large to be a number.
-/
inductive Json.Number where
  | int (n : Int)
  | float (text : String)
  | outOfRange
deriving DecidableEq, Repr

/--
A JSON text. `arr` and `obj` hold what was read of them and the fault that ended them early, if any;
`badStr` is a string whose escapes spell no text.
-/
inductive Json where
  | null
  | bool (b : Bool)
  | num (n : Json.Number)
  | str (s : String)
  | badStr (fault : Json.Fault)
  | arr (items : List Json) (fault : Option Json.Fault)
  | obj (entries : List (String × Json)) (fault : Option Json.Fault)
  | broken (fault : Json.Fault)
deriving Inhabited

namespace Json

/--
The fault that ended the reading of this tree.
-/
def fault? : Json → Option Fault
  | arr _ f => f
  | obj _ f => f
  | broken f => some f
  | _ => none

/--
A complete list.
-/
def list (items : List Json) : Json := arr items none

/--
A complete object.
-/
def object (entries : List (String × Json)) : Json := obj entries none

/--
An integer.
-/
def int (n : Int) : Json := num (.int n)

/--
A natural number.
-/
def nat (n : Nat) : Json := num (.int n)

/--
An optional value, absent as `null`.
-/
def orNull (f : α → Json) : Option α → Json
  | none => null
  | some a => f a

/--
The value of the last entry with this key.
-/
def get? (key : String) : Json → Option Json
  | obj entries _ => (entries.reverse.find? (fun e => e.1 == key)).map (·.2)
  | _ => none

mutual
/--
The same text with the keys of every object in increasing order, the last entry of a key standing for
the earlier ones.
-/
def sorted : Json → Json
  | arr items f => arr (sortedList items) f
  | obj entries f =>
    let entries := sortedEntries entries
    obj ((lastOfKey entries).mergeSort (fun a b => decide (a.1 ≤ b.1))) f
  | j => j

/-- Every element with its keys in order. -/
def sortedList : List Json → List Json
  | [] => []
  | j :: rest => sorted j :: sortedList rest

/-- Every value with its keys in order. -/
def sortedEntries : List (String × Json) → List (String × Json)
  | [] => []
  | (k, j) :: rest => (k, sorted j) :: sortedEntries rest

/-- The entries whose key does not occur again. -/
def lastOfKey : List (String × Json) → List (String × Json)
  | [] => []
  | e :: rest => if rest.any (fun o => o.1 == e.1) then lastOfKey rest else e :: lastOfKey rest
end

end Json

end ApiSurface
