import ApiSurface.Reference.Graph
import ApiSurface.Text.Name

/-!
This module contains the clients of an index: the reachable types with operations, and the calls that give a value
of one of them.
-/

namespace ApiSurface

/--
The clients of an index.
-/
structure Clients where
  /-- The operations of every client with their signatures; clients and operations are in the order of their
  names. -/
  operations : List (String × List (String × String)) := []
  /-- Functions and methods by name, with the client they give. -/
  factories : List (String × String) := []
  /-- Operations of clients, with the client they give. -/
  returns : List ((String × String) × String) := []
  /-- Pairs of a client and one of its parents or implementers, both ways. -/
  related : List (String × String) := []
deriving Repr

namespace Clients

/--
Enter a value under a key that has none yet.
-/
def enter (key : String) (value : α) (es : List (String × α)) : List (String × α) :=
  if es.any (fun e => e.1 == key) then es else es ++ [(key, value)]

/--
Enter a value under a key, instead of an earlier one.
-/
def replace (key : String) (value : α) (es : List (String × α)) : List (String × α) :=
  es.filter (fun e => e.1 != key) ++ [(key, value)]

/--
Entries in the order of their keys.
-/
def sorted (es : List (String × α)) : List (String × α) :=
  es.mergeSort (fun a b => decide (a.1 ≤ b.1))

/--
The value of a key.
-/
def lookup? [BEq κ] (key : κ) (es : List (κ × α)) : Option α :=
  (es.find? (fun e => e.1 == key)).map (·.2)

/--
The operations of a type: what a caller invokes on a value of it. Of several signatures the first counts.
-/
def operationsOf (t : TypeEntry) : List (String × String) :=
  let ops := t.callables.filter (fun m => m.kind != .constructor)
  sorted (ops.foldl (fun es m => enter m.name m.sig es) [])

/--
The operations of all reachable types. Of several types with one name the last counts.
-/
def operationTable (i : Index) : List (String × List (String × String)) :=
  let reachable := (ReferenceGraph.ofIndex i).reachable
  let add (es : List (String × List (String × String))) (x : String × TypeEntry) :=
    let ops := operationsOf x.2
    if reachable.contains ⟨x.1, x.2.name⟩ && !ops.isEmpty then replace x.2.name ops es else es
  sorted (i.types.foldl add [])

/--
The first client that the text of a type mentions.
-/
def mentioned? (isClient : String → Bool) (type : Option String) : Option String :=
  type.bind (fun t => (Text.identifierTokens t).find? isClient)

/--
The client that a member of a type gives.
-/
def givenBy? (isClient : String → Bool) (t : TypeEntry) (m : Member) : Option String :=
  if m.kind == .constructor && isClient t.name then some t.name else mentioned? isClient m.ret

/--
The clients of an index.
-/
def ofIndex (i : Index) : Clients :=
  let operations := operationTable i
  let isClient (name : String) : Bool := operations.any (fun e => e.1 == name)
  let types := i.types.map (·.2)
  let given : List (TypeEntry × Member × String) := types.flatMap fun t =>
    t.callables.filterMap (fun m => (givenBy? isClient t m).map (fun c => (t, m, c)))
  let free : List (String × String) := i.namespaces.flatMap fun ns =>
    ns.functions.filterMap (fun f => (mentioned? isClient f.ret).map (fun c => (f.name, c)))
  let giving : List (String × String) := given.map (fun (_, m, c) => (m.name, c)) ++ free
  let factories := giving.foldl (fun es e => enter e.1 e.2 es) []
  let returns := given.filterMap fun (t, m, c) =>
    if isClient t.name && m.kind != .constructor then some ((t.name, m.name), c) else none
  let related := types.flatMap fun t =>
    (t.parents.map Text.bareName).flatMap fun p =>
      if isClient p && isClient t.name then [(t.name, p), (p, t.name)] else []
  { operations := operations
    factories := factories
    -- The last entry of an operation counts.
    returns := returns.reverse
    related := related }

/--
Whether a client has an operation.
-/
def has (c : Clients) (client method : String) : Bool :=
  ((lookup? client c.operations).getD []).any (fun op => op.1 == method)

/--
The client of this name.
-/
def named? (c : Clients) (name : String) : Option String :=
  if c.operations.any (fun e => e.1 == name) then some name else none

/--
The client that a call of a plain name gives: an object of that class, or what a function of that name returns.
-/
def producedBy? (c : Clients) (callee : String) : Option String :=
  c.named? callee <|> lookup? callee c.factories

/--
The client that an operation of a client gives.
-/
def returnedBy? (c : Clients) (client method : String) : Option String :=
  lookup? (client, method) c.returns

/--
The parents and implementers of a client.
-/
def relatives (c : Clients) (client : String) : List String :=
  (c.related.filter (fun e => e.1 == client)).map (·.2)

/--
All operations: client, name, signature.
-/
def all (c : Clients) : List (String × String × String) :=
  c.operations.flatMap (fun (client, ops) => ops.map (fun (method, sig) => (client, method, sig)))

end Clients

end ApiSurface
