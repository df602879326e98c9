import ApiSurface.Json.Reader
import ApiSurface.Text.Quoted

/-!
This module contains the decoding of JSON trees into values of other types. Of several errors the one that
stands first in the text is reported. A record is written as an object, where unknown keys are ignored, or
as the list of its fields in their order.
-/

namespace ApiSurface.Json

/--
What stands in a text where something else was expected.
-/
inductive Found where
  | null
  | bool (b : Bool)
  | int (n : Int)
  | float (text : String)
  | string (s : String)
  | list
  | object
deriving DecidableEq, Repr

/--
How a message names what it found.
-/
def Found.phrase : Found → String
  | null => "null"
  | bool true => "boolean `true`"
  | bool false => "boolean `false`"
  | int n => s!"integer `{n}`"
  | float text => s!"floating point `{text}`"
  | string s => "string " ++ Text.quoted s
  | list => "sequence"
  | object => "map"

/--
Why a JSON text does not decode.
-/
inductive Error where
  | malformed (fault : Fault)
  | invalidType (found : Found) (expected : String)
  | invalidLength (length : Nat) (expected : String)
  | missingField (name : String)
  | duplicateField (name : String)
  | unknownVariant (name : String) (expected : List String)
deriving DecidableEq, Repr

/--
The sentence that reports the error.
-/
def Error.message : Error → String
  | malformed fault => fault.message
  | invalidType found expected => s!"invalid type: {found.phrase}, expected {expected}"
  | invalidLength length expected => s!"invalid length {length}, expected {expected}"
  | missingField name => s!"missing field `{name}`"
  | duplicateField name => s!"duplicate field `{name}`"
  | unknownVariant name expected =>
    let names := expected.map (fun n => "`" ++ n ++ "`")
    let choice :=
      match names with
      | [] => "there are no variants"
      | [n] => "expected " ++ n
      | [n, m] => "expected " ++ n ++ " or " ++ m
      | _ => "expected one of " ++ ", ".intercalate names
    s!"unknown variant `{name}`, {choice}"

/--
A way to read a tree as a value.
-/
abbrev Decoder (α : Type) := Json → Except Error α

/--
The error of a tree that is not of the expected kind.
-/
def mismatch (expected : String) : Json → Error
  | null => .invalidType .null expected
  | bool b => .invalidType (.bool b) expected
  | num (.int n) => .invalidType (.int n) expected
  | num (.float text) => .invalidType (.float text) expected
  | num .outOfRange => .malformed .numberOutOfRange
  | str s => .invalidType (.string s) expected
  | badStr f => .malformed f
  | arr _ _ => .invalidType .list expected
  | obj _ _ => .invalidType .object expected
  | broken f => .malformed f

namespace Decoder

/--
A text.
-/
def string : Decoder String
  | str s => .ok s
  | j => .error (j.mismatch "a string")

/--
A truth value.
-/
def bool : Decoder Bool
  | .bool b => .ok b
  | j => .error (j.mismatch "a boolean")

/--
The elements of a list, from the first on.
-/
def elements (d : Decoder α) : List Json → Except Error (List α)
  | [] => .ok []
  | j :: rest =>
    match d j with
    | .error e => .error e
    | .ok a =>
      match elements d rest with
      | .error e => .error e
      | .ok as => .ok (a :: as)

/--
A list whose elements are read by `d`.
-/
def list (d : Decoder α) : Decoder (List α)
  | arr items fault =>
    match elements d items, fault with
    | .error e, _ => .error e
    | .ok _, some f => .error (.malformed f)
    | .ok as, none => .ok as
  | j => .error (j.mismatch "a sequence")

/--
A value or `null`.
-/
def nullable (d : Decoder α) : Decoder (Option α)
  | null => .ok none
  | j => (d j).map some

/--
One of the named variants, by its name or as an object that maps the name to `null`.
-/
def variant (variants : List (String × α)) : Decoder α
  | str s => pick s
  | badStr f => .error (.malformed f)
  | obj entries fault =>
    match entries with
    | [] => .error (.malformed (fault.getD .noValue))
    | (name, value) :: rest =>
      match pick name with
      | .error e => .error e
      | .ok a =>
        match value with
        | null => if rest.isEmpty && fault.isNone then .ok a else .error (.malformed (fault.getD .noValue))
        | j => .error (j.mismatch "unit")
  | broken f => .error (.malformed f)
  | _ => .error (.malformed .noValue)
where
  pick (s : String) : Except Error α :=
    match variants.find? (fun v => v.1 == s) with
    | some v => .ok v.2
    | none => .error (.unknownVariant s (variants.map (·.1)))

/--
The values of an object's entries, of which the last of a key counts.
-/
def dictionary (d : Decoder α) : Decoder (List (String × α))
  | obj entries fault =>
    match values entries, fault with
    | .error e, _ => .error e
    | .ok _, some f => .error (.malformed f)
    | .ok as, none => .ok as
  | j => .error (j.mismatch "a map")
where
  values : List (String × Json) → Except Error (List (String × α))
    | [] => .ok []
    | (k, j) :: rest =>
      match d j with
      | .error e => .error e
      | .ok a =>
        match values rest with
        | .error e => .error e
        | .ok as => .ok (if as.any (fun o => o.1 == k) then as else (k, a) :: as)

end Decoder

/--
An error together with the place, counted in entries, at which a reader from the left meets it.
-/
abbrev Located := Nat × Error

/--
The entries a record is read from.
-/
structure Entries where
  items : List (String × Json)
  /-- The error of a required field that is absent. -/
  absent : String → Error

/--
A way to read some fields of a record.
-/
def Fields (α : Type) := Entries → Except Located α

namespace Fields

/--
The field's first entry and its place.
-/
def find (name : String) (es : Entries) : Option (Nat × Json) :=
  (es.items.zipIdx.find? (fun e => e.1.1 == name)).map (fun e => (e.2, e.1.2))

/--
A field that must be there.
-/
def required (name : String) (d : Decoder α) : Fields α := fun es =>
  match find name es with
  | none => .error (es.items.length + 1, es.absent name)
  | some (place, j) => (d j).mapError (fun e => (place, e))

/--
A field with a value for its absence.
-/
def withDefault (name : String) (d : Decoder α) (value : α) : Fields α := fun es =>
  match find name es with
  | none => .ok value
  | some (place, j) => (d j).mapError (fun e => (place, e))

/--
A field that may be absent or `null`.
-/
def optional (name : String) (d : Decoder α) : Fields (Option α) :=
  withDefault name (Decoder.nullable d) none

/--
The earlier of two errors; of two at one place, the first given.
-/
def earlier (e f : Located) : Located :=
  if f.1 < e.1 then f else e

/--
Read two groups of fields, reporting the error that stands first.
-/
def both (f : Fields (α → β)) (g : Fields α) : Fields β := fun es =>
  match f es, g es with
  | .ok h, .ok a => .ok (h a)
  | .ok _, .error e => .error e
  | .error e, .ok _ => .error e
  | .error e, .error e' => .error (earlier e e')

instance : Applicative Fields where
  pure a := fun _ => .ok a
  seq f g := both f (g ())

end Fields

/--
The first entry that repeats a known key, or whose ignored value is malformed.
-/
def strayEntry (names : List String) : List (String × Json) → List String → Nat → Option Located
  | [], _, _ => none
  | (k, j) :: rest, seen, place =>
    if names.contains k then
      if seen.contains k then some (place, .duplicateField k)
      else strayEntry names rest (k :: seen) (place + 1)
    else
      match j.fault? with
      | some f => some (place, .malformed f)
      | none => strayEntry names rest seen (place + 1)

/--
A record called `title` with these field names, in the order in which a list gives them.
-/
def Decoder.record (title : String) (names : List String) (fields : Fields α) : Decoder α := fun j =>
  let finish (es : Entries) (stray : Option Located) : Except Error α :=
    match fields es, stray with
    | .ok a, none => .ok a
    | .ok _, some e => .error e.2
    | .error e, none => .error e.2
    | .error e, some s => .error (Fields.earlier e s).2
  match j with
  | obj entries fault =>
    let stray := strayEntry names entries [] 0
    finish ⟨entries, .missingField⟩ (stray <|> fault.map (fun f => (entries.length, .malformed f)))
  | arr items fault =>
    let expected := s!"struct {title} with {names.length} elements"
    let place (name : String) := names.findIdx (· == name)
    let stray : Option Located :=
      if items.length > names.length then some (names.length, .malformed .trailingCharacters)
      else fault.map (fun f => (items.length, .malformed f))
    finish ⟨names.zip items, fun name => .invalidLength (place name) expected⟩ stray
  | j => .error (j.mismatch ("struct " ++ title))

/--
Decode a whole text.
-/
def decode (d : Decoder α) (text : String) : Except Error α :=
  let doc := Document.read text
  match d doc.root, doc.tail with
  | .error e, _ => .error e
  | .ok _, some f => .error (.malformed f)
  | .ok a, none => .ok a

end ApiSurface.Json
