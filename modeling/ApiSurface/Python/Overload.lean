import ApiSurface.Index.Basic

/-!
This module contains the callables of one scope in their order. Signatures that are marked as overloads stand
for the implementation that follows them, and take its documentation if they have none.
-/

namespace ApiSurface.Python

/--
The callables of a scope while they are being read.
-/
structure Callables where
  /-- What is settled, with the offsets. -/
  settled : List (Nat × Member) := []
  /-- The overloads that no implementation has followed yet, by name. -/
  pending : List (String × List (Nat × Member)) := []
deriving Repr

namespace Callables

/--
The overloads of a name that wait for an implementation.
-/
def waiting (c : Callables) (name : String) : List (Nat × Member) :=
  ((c.pending.find? (fun e => e.1 == name)).map (·.2)).getD []

/--
Add an overload.
-/
def pushOverload (c : Callables) (offset : Nat) (m : Member) : Callables :=
  let others := c.pending.filter (fun e => e.1 != m.name)
  { c with pending := others ++ [(m.name, c.waiting m.name ++ [(offset, m)])] }

/--
The overload with documentation: its own, or else that of the implementation.
-/
def documentedBy (implementation : Member) (overload : Nat × Member) : Nat × Member :=
  (overload.1, { overload.2 with doc := overload.2.doc <|> implementation.doc })

/--
Add an implementation. If overloads of its name wait, they take its place.
-/
def pushImplementation (c : Callables) (offset : Nat) (m : Member) : Callables :=
  match c.waiting m.name with
  | [] => { c with settled := c.settled ++ [(offset, m)] }
  | overloads =>
    { settled := c.settled ++ overloads.map (documentedBy m)
      pending := c.pending.filter (fun e => e.1 != m.name) }

/--
Add a member that is not called. It gets the offset of the one before it.
-/
def pushPlain (c : Callables) (m : Member) : Callables :=
  { c with settled := c.settled ++ [((c.settled.getLast?.map (·.1)).getD 0, m)] }

/--
All members; overloads that no implementation followed come last, by name.
-/
def finish (c : Callables) : List (Nat × Member) :=
  c.settled ++ (c.pending.mergeSort (fun a b => decide (a.1 ≤ b.1))).flatMap (·.2)

end Callables

end ApiSurface.Python
