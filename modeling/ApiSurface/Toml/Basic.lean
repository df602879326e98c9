/-!
This module contains TOML documents as trees, and how the statements of a document build one up. A table
remembers what brought it about, because that decides whether a later statement may add to it.
-/

namespace ApiSurface

namespace Toml

/--
What brought a table about.
-/
inductive Origin where
  /-- A header that names a table below it. -/
  | above
  /-- Its own header. -/
  | header
  /-- A key with dots. -/
  | dotted
  /-- Braces. -/
  | braces
deriving DecidableEq, Repr

end Toml

/--
A TOML value.
-/
inductive Toml where
  | str (s : String)
  | int (n : Int)
  | float (written : String)
  | bool (b : Bool)
  /-- A date, a time, or both. -/
  | moment (written : String)
  | arr (items : List Toml)
  | table (origin : Toml.Origin) (entries : List (String × Toml))
  /-- The tables of repeated headers, the last one first. -/
  | tables (items : List Toml)
deriving Repr, Inhabited

namespace Toml

/--
The value of a key.
-/
def lookup? (key : String) : List (String × Toml) → Option Toml
  | [] => none
  | (k, v) :: rest => if k == key then some v else lookup? key rest

/--
Give a key a value; a new key goes to the end.
-/
def put (key : String) (value : Toml) : List (String × Toml) → List (String × Toml)
  | [] => [(key, value)]
  | (k, v) :: rest => if k == key then (key, value) :: rest else (k, v) :: put key value rest

/--
The entries of a table.
-/
def entries : Toml → List (String × Toml)
  | .table _ es => es
  | _ => []

/--
The value of a key in a table.
-/
def get? (t : Toml) (key : String) : Option Toml :=
  lookup? key t.entries

/--
The text of a string value.
-/
def text? : Toml → Option String
  | .str s => some s
  | _ => none

/--
The table of a value.
-/
def table? : Toml → Option Toml
  | .table o es => some (.table o es)
  | _ => none

/--
Set `key` in the table that `path` leads to by dots. Tables with a header of their own cannot be entered, and a
table cannot be both written with dots and named by headers.
-/
def assign (es : List (String × Toml)) : List String → String → Toml →
    Option (List (String × Toml))
  | [], key, value =>
    match lookup? key es with
    | some _ => none
    | none => some (es ++ [(key, value)])
  | p :: path, key, value =>
    match lookup? p es with
    | none => (assign [] path key value).map (fun inner => es ++ [(p, .table .dotted inner)])
    | some (.table .dotted inner) =>
      (assign inner path key value).map (fun inner => put p (.table .dotted inner) es)
    | some (.table .above inner) =>
      if path.isEmpty then none
      else (assign inner path key value).map (fun inner => put p (.table .above inner) es)
    | some _ => none

/--
Change the table that a header names: `change` gets what stands there, if anything does. On the way, the last of
repeated tables is entered.
-/
def atHeader (change : Option Toml → Option Toml) : List String → List (String × Toml) → Option (List (String × Toml))
  | [], _ => none
  | [key], es => (change (lookup? key es)).map (fun v => put key v es)
  | key :: path, es =>
    match lookup? key es with
    | none => (atHeader change path []).map (fun inner => put key (.table .above inner) es)
    | some (.table .braces _) => none
    | some (.table o inner) => (atHeader change path inner).map (fun inner => put key (.table o inner) es)
    | some (.tables (.table o inner :: earlier)) =>
      (atHeader change path inner).map (fun inner => put key (.tables (.table o inner :: earlier)) es)
    | some _ => none

/--
What a header makes of what stands in its place.
-/
def openTable : Option Toml → Option Toml
  | none => some (.table .header [])
  | some (.table .above es) => some (.table .header es)
  | some _ => none

/--
What a repeated header makes of what stands in its place.
-/
def openRepeated : Option Toml → Option Toml
  | none => some (.tables [.table .header []])
  | some (.tables items) => some (.tables (.table .header [] :: items))
  | some _ => none

/--
Set a key in the table that the latest header opened.
-/
def assignBelow (header : List String) (path : List String) (key : String) (value : Toml)
    (es : List (String × Toml)) : Option (List (String × Toml)) :=
  if header.isEmpty then assign es path key value
  else
    atHeader (fun
      | some (.table o inner) => (assign inner path key value).map (.table o)
      | some (.tables (.table o inner :: earlier)) =>
        (assign inner path key value).map (fun inner => .tables (.table o inner :: earlier))
      | _ => none) header es

end Toml

end ApiSurface
