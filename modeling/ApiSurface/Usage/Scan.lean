import ApiSurface.Code.Term
import ApiSurface.Usage.Clients

/-!
This module contains the scan of a sample program: which clients its names stand for, and which of their
operations it calls. Names are taken as they come in the text, without regard to where they are visible.
-/

namespace ApiSurface

open Code

/--
An operation that a sample calls, and where.
-/
structure CoveredOperation where
  client : String
  method : String
  file : String
  line : Nat
deriving DecidableEq, Repr

/--
What is found in a sample.
-/
structure FileScan where
  covered : List CoveredOperation := []
  patterns : List String := []
deriving Repr

/--
The clients that the names of a program stand for.
-/
abbrev Variables := List (String × String)

namespace Scan

/--
The client that a term stands for, if it can be told.
-/
def resolve (c : Clients) (vars : Variables) : Term → Option String
  | .wrapped _ inner => resolve c vars inner
  | .construct type _ => c.named? (Text.bareName type)
  | .call _ (.member object method) _ =>
    match resolve c vars object with
    | some client => c.returnedBy? client method
    | none => c.producedBy? method
  | .call _ (.name callee) _ => c.producedBy? callee
  | .member _ field => Clients.lookup? field vars
  | .name n => Clients.lookup? n vars <|> c.named? n
  | _ => none

/--
The client that a name gets: by its declared type, or else by its value.
-/
def boundClient (c : Clients) (vars : Variables) (declared : Option String) (value : Option Term) : Option String :=
  declared.bind (fun d => c.named? (Text.bareName d)) <|> value.bind (resolve c vars)

/--
The names after an occurrence. A binding that says nothing about clients changes nothing.
-/
def bindNames (c : Clients) (vars : Variables) : Occurrence → Variables
  | .bind name declared value =>
    match boundClient c vars declared value with
    | some client => (name, client) :: vars
    | none => vars
  | _ => vars

/--
The operation that an occurrence calls.
-/
def coveredBy (c : Clients) (vars : Variables) (file : String) : Occurrence → List CoveredOperation
  | .call line receiver method =>
    match resolve c vars receiver with
    | some client => if c.has client method then [⟨client, method, file, line⟩] else []
    | none => []
  | _ => []

/--
The idiom that an occurrence is.
-/
def idiomOf : Occurrence → List String
  | .idiom name => [name]
  | _ => []

/--
Scan what a sample does.
-/
def ofTerm (c : Clients) (file : String) (t : Term) : FileScan :=
  let os := t.occurrences
  let vars := os.foldl (bindNames c) []
  { covered := os.flatMap (coveredBy c vars file)
    patterns := os.flatMap idiomOf }

end Scan

end ApiSurface
