import Mathlib.Data.List.Induction
import Mathlib.Data.List.Nodup
import ApiSurface.Proofs.Lists
import ApiSurface.Python.Overload

/-!
This module contains proofs about the callables of a scope that were read one after the other: each overload is given
back once, implementations stand aside for the overloads before them, and what waits to the end comes last.
-/

namespace ApiSurface.Python

/--
One thing that is read in a scope.
-/
inductive Push where
  | overload (offset : Nat) (m : Member)
  | implementation (offset : Nat) (m : Member)
  | plain (m : Member)

/--
Add what was read to the callables.
-/
def Callables.push (c : Callables) : Push → Callables
  | .overload offset m => c.pushOverload offset m
  | .implementation offset m => c.pushImplementation offset m
  | .plain m => c.pushPlain m

/--
The callables after everything was read.
-/
def Callables.ofPushes (ps : List Push) : Callables :=
  ps.foldl Callables.push {}

/--
At this place an overload of the name was read.
-/
def OverloadAt (ps : List Push) (name : String) (place : Nat) : Prop :=
  ∃ offset m, ps[place]? = some (.overload offset m) ∧ m.name = name

/--
At this place an implementation of the name was read.
-/
def ImplementationAt (ps : List Push) (name : String) (place : Nat) : Prop :=
  ∃ offset m, ps[place]? = some (.implementation offset m) ∧ m.name = name

/--
The overload at this place is not followed by an implementation.
-/
def WaitsAt (ps : List Push) (name : String) (place : Nat) : Prop :=
  OverloadAt ps name place ∧ ∀ later, place < later → ¬ ImplementationAt ps name later

/--
No overload of the name was read before this place since the implementation before it, or since the start.
-/
def StandsAlone (ps : List Push) (name : String) (place : Nat) : Prop :=
  ¬ ∃ earlier, earlier < place ∧ OverloadAt ps name earlier ∧
    ∀ between, earlier < between → between < place → ¬ ImplementationAt ps name between

/--
The first implementation of the name behind this place.
-/
def NextImplementation (ps : List Push) (name : String) (place : Nat) (m : Member) : Prop :=
  ∃ later offset, place < later ∧ ps[later]? = some (.implementation offset m) ∧ m.name = name ∧
    ∀ between, place < between → between < later → ¬ ImplementationAt ps name between

/--
A member that is given back, with the place where it was read.
-/
structure Placed where
  place : Nat
  offset : Nat
  member : Member

/--
What is given back for it.
-/
def Placed.item (x : Placed) : Nat × Member :=
  (x.offset, x.member)

/--
The member is what was read at its place: a plain one, an implementation, or an overload that was followed by an
implementation and has its documentation if it has none itself.
-/
inductive Settles (ps : List Push) : Placed → Prop where
  | plain {place offset : Nat} {m : Member} (h : ps[place]? = some (.plain m)) : Settles ps ⟨place, offset, m⟩
  | implementation {place offset : Nat} {m : Member} (h : ps[place]? = some (.implementation offset m)) :
    Settles ps ⟨place, offset, m⟩
  | absorbed {place offset : Nat} {m next : Member} (h : ps[place]? = some (.overload offset m))
    (hnext : NextImplementation ps m.name place next) : Settles ps ⟨place, offset, { m with doc := m.doc.or next.doc }⟩

/--
The member is the overload that was read at its place, and no implementation followed.
-/
def Remains (ps : List Push) (x : Placed) : Prop :=
  ps[x.place]? = some (.overload x.offset x.member) ∧ WaitsAt ps x.member.name x.place

/--
Two members are not overloads of one name in the wrong order.
-/
def InOrder (ps : List Push) (x y : Placed) : Prop :=
  ∀ name, OverloadAt ps name x.place → OverloadAt ps name y.place → x.place < y.place

/--
What is given back of all that was read: members that were settled on the way, and then the overloads that remain.
-/
structure GivesBack (ps : List Push) (settled remaining : List Placed) : Prop where
  settles : ∀ x ∈ settled, Settles ps x
  remains : ∀ x ∈ remaining, Remains ps x
  /-- Nothing is given back twice. -/
  once : ((settled ++ remaining).map Placed.place).Nodup
  overloads : ∀ name place, OverloadAt ps name place → place ∈ (settled ++ remaining).map Placed.place
  plains : ∀ m place, ps[place]? = some (.plain m) → place ∈ (settled ++ remaining).map Placed.place
  implementations : ∀ offset m place, ps[place]? = some (.implementation offset m) →
    (place ∈ (settled ++ remaining).map Placed.place ↔ StandsAlone ps m.name place)
  /-- The overloads that no implementation follows are those that come last. -/
  last : ∀ place, place ∈ remaining.map Placed.place ↔ ∃ name, WaitsAt ps name place
  /-- Overloads of one name keep their order. -/
  ordered : (settled ++ remaining).Pairwise (InOrder ps)
  /-- What remains is grouped by name, and the names are in order. -/
  grouped : remaining.Pairwise fun x y =>
    x.member.name < y.member.name ∨ x.member.name = y.member.name ∧ x.place < y.place

variable {ps : List Push} {p q : Push} {name : String} {place offset : Nat} {m : Member}

section Places

theorem getElem?_append_singleton_eq_some_iff :
    (ps ++ [p])[place]? = some q ↔ ps[place]? = some q ∨ place = ps.length ∧ p = q := by
  rw [List.getElem?_append]
  split
  . next hlt =>
    have hne : place ≠ ps.length := by omega
    simp [hne]
  . next hge =>
    have hnone : ps[place]? = none := List.getElem?_eq_none (by omega)
    rw [hnone]
    by_cases heq : place = ps.length
    . simp [heq]
    . have hne : ¬ place - ps.length = 0 := by omega
      simp [heq, hne]

theorem lt_length_of_getElem? (h : ps[place]? = some q) : place < ps.length := by
  apply (List.getElem?_eq_some_iff.mp h).1

theorem OverloadAt.lt_length (h : OverloadAt ps name place) : place < ps.length := by
  obtain ⟨offset, m, hplace, -⟩ := h
  apply lt_length_of_getElem? hplace

theorem ImplementationAt.lt_length (h : ImplementationAt ps name place) : place < ps.length := by
  obtain ⟨offset, m, hplace, -⟩ := h
  apply lt_length_of_getElem? hplace

/--
The push reads an overload of the name.
-/
def Push.IsOverload (p : Push) (name : String) : Prop :=
  ∃ offset m, p = .overload offset m ∧ m.name = name

/--
The push reads an implementation of the name.
-/
def Push.IsImplementation (p : Push) (name : String) : Prop :=
  ∃ offset m, p = .implementation offset m ∧ m.name = name

@[simp]
theorem Push.isOverload_overload : (Push.overload offset m).IsOverload name ↔ m.name = name := by
  simp [Push.IsOverload]

@[simp]
theorem Push.not_isOverload_implementation : ¬ (Push.implementation offset m).IsOverload name := by
  simp [Push.IsOverload]

@[simp]
theorem Push.not_isOverload_plain : ¬ (Push.plain m).IsOverload name := by
  simp [Push.IsOverload]

@[simp]
theorem Push.isImplementation_implementation :
    (Push.implementation offset m).IsImplementation name ↔ m.name = name := by
  simp [Push.IsImplementation]

@[simp]
theorem Push.not_isImplementation_overload : ¬ (Push.overload offset m).IsImplementation name := by
  simp [Push.IsImplementation]

@[simp]
theorem Push.not_isImplementation_plain : ¬ (Push.plain m).IsImplementation name := by
  simp [Push.IsImplementation]

theorem overloadAt_append_singleton :
    OverloadAt (ps ++ [p]) name place ↔ OverloadAt ps name place ∨ place = ps.length ∧ p.IsOverload name := by
  unfold OverloadAt Push.IsOverload
  simp only [getElem?_append_singleton_eq_some_iff]
  grind

theorem implementationAt_append_singleton :
    ImplementationAt (ps ++ [p]) name place ↔
      ImplementationAt ps name place ∨ place = ps.length ∧ p.IsImplementation name := by
  unfold ImplementationAt Push.IsImplementation
  simp only [getElem?_append_singleton_eq_some_iff]
  grind

theorem overloadAt_append_of_lt (h : place < ps.length) :
    OverloadAt (ps ++ [p]) name place ↔ OverloadAt ps name place := by
  rw [overloadAt_append_singleton]
  constructor
  . rintro (hplace | ⟨heq, -⟩)
    . exact hplace
    . omega
  . exact Or.inl

theorem implementationAt_append_of_lt (h : place < ps.length) :
    ImplementationAt (ps ++ [p]) name place ↔ ImplementationAt ps name place := by
  rw [implementationAt_append_singleton]
  constructor
  . rintro (hplace | ⟨heq, -⟩)
    . exact hplace
    . omega
  . exact Or.inl

/--
An overload waits on until an implementation of its name is read.
-/
theorem waitsAt_append_singleton :
    WaitsAt (ps ++ [p]) name place ↔
      WaitsAt ps name place ∧ ¬ p.IsImplementation name ∨ place = ps.length ∧ p.IsOverload name := by
  constructor
  . rintro ⟨hplace, hlater⟩
    rw [overloadAt_append_singleton] at hplace
    rcases hplace with hplace | hplace
    . refine Or.inl ⟨⟨hplace, ?_⟩, ?_⟩
      . intro later hlt himpl
        apply hlater later hlt
        rw [implementationAt_append_of_lt himpl.lt_length]
        exact himpl
      . intro hp
        apply hlater ps.length hplace.lt_length
        rw [implementationAt_append_singleton]
        exact Or.inr ⟨rfl, hp⟩
    . exact Or.inr hplace
  . rintro (⟨hwaits, hp⟩ | ⟨rfl, hp⟩)
    . refine ⟨overloadAt_append_singleton.mpr (Or.inl hwaits.1), ?_⟩
      intro later hlt himpl
      rw [implementationAt_append_singleton] at himpl
      rcases himpl with himpl | ⟨-, himpl⟩
      . exact hwaits.2 later hlt himpl
      . exact hp himpl
    . refine ⟨overloadAt_append_singleton.mpr (Or.inr ⟨rfl, hp⟩), ?_⟩
      intro later hlt himpl
      have := himpl.lt_length
      rw [List.length_append, List.length_singleton] at this
      omega

theorem standsAlone_append_of_lt (h : place < ps.length) :
    StandsAlone (ps ++ [p]) name place ↔ StandsAlone ps name place := by
  unfold StandsAlone
  apply not_congr
  apply exists_congr
  intro earlier
  apply and_congr_right
  intro hearlier
  rw [overloadAt_append_of_lt (by omega)]
  apply and_congr_right
  intro _
  apply forall_congr'
  intro between
  apply imp_congr_right
  intro _
  apply imp_congr_right
  intro hbetween
  rw [implementationAt_append_of_lt (by omega)]

/--
What is read stands alone if nothing waits for it.
-/
theorem standsAlone_length_iff :
    StandsAlone (ps ++ [p]) name ps.length ↔ ∀ earlier, ¬ WaitsAt ps name earlier := by
  unfold StandsAlone WaitsAt
  rw [not_exists]
  apply forall_congr'
  intro earlier
  apply not_congr
  constructor
  . rintro ⟨hlt, hover, hbetween⟩
    refine ⟨(overloadAt_append_of_lt hlt).mp hover, ?_⟩
    intro later hlater himpl
    apply hbetween later hlater himpl.lt_length
    rw [implementationAt_append_of_lt himpl.lt_length]
    exact himpl
  . rintro ⟨hover, hlater⟩
    refine ⟨hover.lt_length, (overloadAt_append_of_lt hover.lt_length).mpr hover, ?_⟩
    intro between hbetween hlt himpl
    rw [implementationAt_append_of_lt hlt] at himpl
    exact hlater between hbetween himpl

theorem Settles.append_singleton {x : Placed} (h : Settles ps x) (p : Push) : Settles (ps ++ [p]) x := by
  have hkept {place : Nat} {q : Push} (hplace : ps[place]? = some q) : (ps ++ [p])[place]? = some q :=
    getElem?_append_singleton_eq_some_iff.mpr (Or.inl hplace)
  cases h with
  | plain h => exact Settles.plain (hkept h)
  | implementation h => exact Settles.implementation (hkept h)
  | absorbed h hnext =>
    obtain ⟨later, offset, hlt, hlater, hname, hbetween⟩ := hnext
    refine Settles.absorbed (hkept h) ⟨later, offset, hlt, hkept hlater, hname, ?_⟩
    intro between hafter hbefore
    have := lt_length_of_getElem? hlater
    rw [implementationAt_append_of_lt (by omega)]
    exact hbetween between hafter hbefore

end Places

section Settling

/--
What was read at this place is settled after all that was read.
-/
inductive SettledAt (ps : List Push) (place : Nat) : Prop where
  | plain {m : Member} (h : ps[place]? = some (.plain m))
  | implementation {offset : Nat} {m : Member} (h : ps[place]? = some (.implementation offset m))
    (halone : StandsAlone ps m.name place)
  | overload {name : String} {later : Nat} (h : OverloadAt ps name place) (hlt : place < later)
    (himpl : ImplementationAt ps name later)

/--
What is settled when one more thing is read: itself, or the overloads that waited for it.
-/
def NewlySettled (ps : List Push) (place : Nat) : Push → Prop
  | .plain _ => place = ps.length
  | .overload _ _ => False
  | .implementation _ m => WaitsAt ps m.name place ∨ place = ps.length ∧ ∀ earlier, ¬ WaitsAt ps m.name earlier

theorem OverloadAt.name_eq {name' : String} (h : OverloadAt ps name place) (h' : OverloadAt ps name' place) :
    name = name' := by
  obtain ⟨offset, m, hplace, rfl⟩ := h
  obtain ⟨offset', m', hplace', rfl⟩ := h'
  rw [hplace, Option.some.injEq, Push.overload.injEq] at hplace'
  rw [hplace'.2]

theorem SettledAt.lt_length (h : SettledAt ps place) : place < ps.length := by
  cases h with
  | plain h => apply lt_length_of_getElem? h
  | implementation h => apply lt_length_of_getElem? h
  | overload h => apply h.lt_length

theorem SettledAt.of_not_waitsAt (h : OverloadAt ps name place) (hwaits : ¬ WaitsAt ps name place) :
    SettledAt ps place := by
  by_contra hsettled
  apply hwaits
  refine ⟨h, ?_⟩
  intro later hlt himpl
  exact hsettled (SettledAt.overload h hlt himpl)

/--
What is settled stands before what waits under the same name.
-/
theorem SettledAt.lt_of_waitsAt {place' : Nat} (h : SettledAt ps place) (hname : OverloadAt ps name place)
    (hwaits : WaitsAt ps name place') : place < place' := by
  cases h with
  | plain h =>
    obtain ⟨offset, m, hplace, -⟩ := hname
    rw [h] at hplace
    exact absurd hplace (by simp)
  | implementation h =>
    obtain ⟨offset, m, hplace, -⟩ := hname
    rw [h] at hplace
    exact absurd hplace (by simp)
  | @overload _ later h hlt himpl =>
    obtain rfl := h.name_eq hname
    have hle : later ≤ place' := by
      by_contra hgt
      exact hwaits.2 later (by omega) himpl
    omega

theorem SettledAt.not_newlySettled (h : SettledAt ps place) (p : Push) : ¬ NewlySettled ps place p := by
  intro hnew
  have hlt := h.lt_length
  cases p with
  | plain m =>
    have heq : place = ps.length := hnew
    omega
  | overload offset m => exact hnew
  | implementation offset m =>
    rcases hnew with hwaits | ⟨heq, -⟩
    . have := h.lt_of_waitsAt hwaits.1 hwaits
      omega
    . omega

theorem settledAt_append_singleton :
    SettledAt (ps ++ [p]) place ↔ SettledAt ps place ∨ NewlySettled ps place p := by
  constructor
  . intro h
    cases h with
    | plain h =>
      rcases getElem?_append_singleton_eq_some_iff.mp h with h | ⟨rfl, rfl⟩
      . exact Or.inl (SettledAt.plain h)
      . exact Or.inr rfl
    | implementation h halone =>
      rcases getElem?_append_singleton_eq_some_iff.mp h with h | ⟨rfl, rfl⟩
      . rw [standsAlone_append_of_lt (lt_length_of_getElem? h)] at halone
        exact Or.inl (SettledAt.implementation h halone)
      . exact Or.inr (Or.inr ⟨rfl, standsAlone_length_iff.mp halone⟩)
    | @overload name later h hlt himpl =>
      have hlater := himpl.lt_length
      rw [List.length_append, List.length_singleton] at hlater
      rw [overloadAt_append_of_lt (by omega)] at h
      by_cases hwaits : WaitsAt ps name place
      . rcases implementationAt_append_singleton.mp himpl with himpl | ⟨-, offset, m, rfl, rfl⟩
        . exact absurd himpl (hwaits.2 later hlt)
        . exact Or.inr (Or.inl hwaits)
      . exact Or.inl (SettledAt.of_not_waitsAt h hwaits)
  . rintro (h | h)
    . have hlt := h.lt_length
      cases h with
      | plain h => exact SettledAt.plain (getElem?_append_singleton_eq_some_iff.mpr (Or.inl h))
      | implementation h halone =>
        apply SettledAt.implementation (getElem?_append_singleton_eq_some_iff.mpr (Or.inl h))
        rw [standsAlone_append_of_lt hlt]
        exact halone
      | overload h hlater himpl =>
        apply SettledAt.overload (overloadAt_append_singleton.mpr (Or.inl h)) hlater
        exact implementationAt_append_singleton.mpr (Or.inl himpl)
    . cases p with
      | plain m =>
        apply SettledAt.plain (m := m)
        exact getElem?_append_singleton_eq_some_iff.mpr (Or.inr ⟨h, rfl⟩)
      | overload offset m => exact absurd h id
      | implementation offset m =>
        rcases h with hwaits | ⟨rfl, halone⟩
        . apply SettledAt.overload (overloadAt_append_singleton.mpr (Or.inl hwaits.1)) hwaits.1.lt_length
          exact implementationAt_append_singleton.mpr (Or.inr ⟨rfl, offset, m, rfl, rfl⟩)
        . apply SettledAt.implementation (getElem?_append_singleton_eq_some_iff.mpr (Or.inr ⟨rfl, rfl⟩))
          exact standsAlone_length_iff.mpr halone

/--
What was settled of all that was read, in the order in which it was.
-/
structure SettledBy (ps : List Push) (items : List (Nat × Member)) (settled : List Placed) : Prop where
  items_eq : items = settled.map Placed.item
  settles : ∀ x ∈ settled, Settles ps x
  once : (settled.map Placed.place).Nodup
  places_iff : ∀ place, place ∈ settled.map Placed.place ↔ SettledAt ps place
  ordered : settled.Pairwise (InOrder ps)

theorem InOrder.append_singleton {x y : Placed} (h : InOrder ps x y) (hx : x.place < ps.length)
    (hy : y.place < ps.length) (p : Push) : InOrder (ps ++ [p]) x y := by
  intro name hxname hyname
  rw [overloadAt_append_of_lt hx] at hxname
  rw [overloadAt_append_of_lt hy] at hyname
  exact h name hxname hyname

theorem SettledBy.append_singleton {items : List (Nat × Member)} {settled : List Placed}
    (h : SettledBy ps items settled) (new : List Placed) (hsettles : ∀ x ∈ new, Settles (ps ++ [p]) x)
    (hincreasing : new.Pairwise fun x y => x.place < y.place)
    (hplaces : ∀ place, place ∈ new.map Placed.place ↔ NewlySettled ps place p) :
    SettledBy (ps ++ [p]) (items ++ new.map Placed.item) (settled ++ new) where
  items_eq := by rw [h.items_eq, List.map_append]
  settles := by
    intro x hx
    rw [List.mem_append] at hx
    cases hx with
    | inl hx => exact (h.settles x hx).append_singleton p
    | inr hx => exact hsettles x hx
  once := by
    rw [List.map_append, List.nodup_append]
    refine ⟨h.once, ?_, ?_⟩
    . rw [List.Nodup, List.pairwise_map]
      apply hincreasing.imp
      intro x y hlt
      omega
    . rintro place hold _ hnew rfl
      rw [h.places_iff] at hold
      rw [hplaces] at hnew
      exact hold.not_newlySettled p hnew
  places_iff := by
    intro place
    rw [List.map_append, List.mem_append, h.places_iff, hplaces, settledAt_append_singleton]
  ordered := by
    have hold : ∀ x ∈ settled, SettledAt ps x.place :=
      fun x hx => (h.places_iff x.place).mp (List.mem_map_of_mem hx)
    rw [List.pairwise_append]
    refine ⟨?_, ?_, ?_⟩
    . apply h.ordered.imp_of_mem
      intro x y hx hy hxy
      exact hxy.append_singleton (hold x hx).lt_length (hold y hy).lt_length p
    . apply hincreasing.imp
      intro x y hlt name _ _
      exact hlt
    . intro x hx y hy name hxname hyname
      have hxold := hold x hx
      have hlt := hxold.lt_length
      have hynew := (hplaces y.place).mp (List.mem_map_of_mem hy)
      rw [overloadAt_append_of_lt hlt] at hxname
      cases p with
      | plain m =>
        have heq : y.place = ps.length := hynew
        omega
      | overload offset m => exact absurd hynew id
      | implementation offset m =>
        rcases hynew with hwaits | ⟨heq, -⟩
        . rw [overloadAt_append_of_lt hwaits.1.lt_length] at hyname
          obtain rfl := hyname.name_eq hwaits.1
          exact hxold.lt_of_waitsAt hxname hwaits
        . omega

end Settling

section Waiting

namespace Callables

variable (c : Callables)

theorem find?_pending_filter (name' : String) :
    (c.pending.filter (fun e => e.1 != name')).find? (fun e => e.1 == name) =
      if name = name' then none else c.pending.find? (fun e => e.1 == name) := by
  split
  . next heq =>
    rw [List.find?_eq_none]
    intro e he
    rw [List.mem_filter] at he
    rw [heq]
    simpa using he.2
  . next hne =>
    rw [List.find?_filter]
    congr 1
    funext e
    by_cases he : e.1 = name
    . simp [he, hne]
    . simp [he]

theorem waiting_pushOverload (offset : Nat) (m : Member) :
    (c.pushOverload offset m).waiting name =
      if name = m.name then c.waiting name ++ [(offset, m)] else c.waiting name := by
  unfold pushOverload
  rw [waiting]
  dsimp only
  rw [List.find?_append, find?_pending_filter]
  by_cases hname : name = m.name
  . simp [hname]
  . have hne : m.name ≠ name := fun heq => hname heq.symm
    simp [hname, hne, waiting]

theorem waiting_pushImplementation (offset : Nat) (m : Member) :
    (c.pushImplementation offset m).waiting name = if name = m.name then [] else c.waiting name := by
  unfold pushImplementation
  split
  . next hnone =>
    by_cases hname : name = m.name
    . rw [if_pos hname, hname]
      exact hnone
    . rw [if_neg hname]
      rfl
  . rw [waiting]
    dsimp only
    rw [find?_pending_filter]
    by_cases hname : name = m.name
    . simp [hname]
    . simp [hname, waiting]

theorem settled_pushImplementation (offset : Nat) (m : Member) :
    (c.pushImplementation offset m).settled =
      c.settled ++ if c.waiting m.name = [] then [(offset, m)] else (c.waiting m.name).map (documentedBy m) := by
  unfold pushImplementation
  split
  . next hnone => rw [hnone, if_pos rfl]
  . next hsome => rw [if_neg hsome]

end Callables

/--
The overloads of a name that wait after all that was read.
-/
structure Awaits (ps : List Push) (name : String) (items : List (Nat × Member)) (waiting : List Placed) : Prop where
  items_eq : items = waiting.map Placed.item
  overloads : ∀ x ∈ waiting, ps[x.place]? = some (.overload x.offset x.member) ∧ x.member.name = name
  places_iff : ∀ place, place ∈ waiting.map Placed.place ↔ WaitsAt ps name place
  increasing : waiting.Pairwise fun x y => x.place < y.place

variable {items : List (Nat × Member)} {waiting : List Placed}

theorem Awaits.waitsAt {x : Placed} (h : Awaits ps name items waiting) (hx : x ∈ waiting) : WaitsAt ps name x.place :=
  (h.places_iff x.place).mp (List.mem_map_of_mem hx)

theorem Awaits.append_other (h : Awaits ps name items waiting) (hover : ¬ p.IsOverload name)
    (himpl : ¬ p.IsImplementation name) : Awaits (ps ++ [p]) name items waiting where
  items_eq := h.items_eq
  overloads := by
    intro x hx
    have hplace := h.overloads x hx
    exact ⟨getElem?_append_singleton_eq_some_iff.mpr (Or.inl hplace.1), hplace.2⟩
  places_iff := by
    intro place
    rw [h.places_iff, waitsAt_append_singleton]
    simp [hover, himpl]
  increasing := h.increasing

theorem Awaits.append_overload (h : Awaits ps m.name items waiting) (offset : Nat) :
    Awaits (ps ++ [.overload offset m]) m.name (items ++ [(offset, m)]) (waiting ++ [⟨ps.length, offset, m⟩]) where
  items_eq := by
    rw [h.items_eq, List.map_append]
    rfl
  overloads := by
    intro x hx
    rw [List.mem_append, List.mem_singleton] at hx
    rw [getElem?_append_singleton_eq_some_iff]
    rcases hx with hx | rfl
    . have hplace := h.overloads x hx
      exact ⟨Or.inl hplace.1, hplace.2⟩
    . exact ⟨Or.inr ⟨rfl, rfl⟩, rfl⟩
  places_iff := by
    intro place
    rw [List.map_append, List.mem_append, h.places_iff, waitsAt_append_singleton]
    simp
  increasing := by
    rw [List.pairwise_append]
    refine ⟨h.increasing, List.pairwise_singleton _ _, ?_⟩
    intro x hx y hy
    obtain rfl := List.mem_singleton.mp hy
    exact (h.waitsAt hx).1.lt_length

theorem awaits_append_implementation (ps : List Push) (offset : Nat) (m : Member) :
    Awaits (ps ++ [.implementation offset m]) m.name [] [] where
  items_eq := rfl
  overloads := by simp
  places_iff := by
    intro place
    rw [waitsAt_append_singleton]
    simp
  increasing := List.Pairwise.nil

/--
A waiting overload when its implementation is read.
-/
def Placed.documentedBy (m : Member) (x : Placed) : Placed :=
  { x with member := { x.member with doc := x.member.doc.or m.doc } }

theorem Awaits.settles {x : Placed} (h : Awaits ps m.name items waiting) (hx : x ∈ waiting) (offset : Nat) :
    Settles (ps ++ [.implementation offset m]) (x.documentedBy m) := by
  have hplace := h.overloads x hx
  have hwaits := h.waitsAt hx
  apply Settles.absorbed (getElem?_append_singleton_eq_some_iff.mpr (Or.inl hplace.1))
  refine ⟨ps.length, offset, hwaits.1.lt_length, ?_, hplace.2.symm, ?_⟩
  . exact getElem?_append_singleton_eq_some_iff.mpr (Or.inr ⟨rfl, rfl⟩)
  . intro between hlt hbetween
    rw [implementationAt_append_of_lt hbetween, hplace.2]
    exact hwaits.2 between hlt

theorem Awaits.map_documentedBy (h : Awaits ps name items waiting) (m : Member) :
    items.map (Callables.documentedBy m) = (waiting.map (Placed.documentedBy m)).map Placed.item := by
  rw [h.items_eq, List.map_map, List.map_map]
  apply List.map_congr_left
  intro x _
  cases hdoc : x.member.doc <;> simp [Callables.documentedBy, Placed.item, Placed.documentedBy, hdoc]

end Waiting

section Histories

/--
The callables hold what was read: what is settled of it, and what waits under each name.
-/
structure Holds (ps : List Push) (c : Callables) : Prop where
  settled : ∃ settled, SettledBy ps c.settled settled
  waiting : ∀ name, ∃ waiting, Awaits ps name (c.waiting name) waiting
  names : (c.pending.map (·.1)).Nodup

variable {c : Callables}

theorem holds_nil : Holds [] {} where
  settled := by
    refine ⟨[], rfl, by simp, by simp, ?_, List.Pairwise.nil⟩
    intro place
    constructor
    . simp
    . intro h
      exact absurd h.lt_length (by simp)
  waiting := by
    intro name
    refine ⟨[], rfl, by simp, ?_, List.Pairwise.nil⟩
    intro place
    constructor
    . simp
    . intro h
      exact absurd h.1.lt_length (by simp)
  names := List.nodup_nil

theorem Holds.push_overload (h : Holds ps c) (offset : Nat) (m : Member) :
    Holds (ps ++ [.overload offset m]) (c.pushOverload offset m) where
  settled := by
    obtain ⟨settled, hsettled⟩ := h.settled
    have hkept := hsettled.append_singleton (p := .overload offset m) [] (by simp) List.Pairwise.nil
      (by simp [NewlySettled])
    rw [List.map_nil, List.append_nil, List.append_nil] at hkept
    exact ⟨settled, hkept⟩
  waiting := by
    intro name
    rw [Callables.waiting_pushOverload]
    obtain ⟨waiting, hwaiting⟩ := h.waiting name
    split
    . next hname =>
      subst hname
      exact ⟨_, hwaiting.append_overload offset⟩
    . next hname =>
      refine ⟨waiting, hwaiting.append_other ?_ Push.not_isImplementation_overload⟩
      rw [Push.isOverload_overload]
      exact fun heq => hname heq.symm
  names := by
    unfold Callables.pushOverload
    rw [List.map_append, List.nodup_append]
    refine ⟨(List.filter_sublist.map _).nodup h.names, by simp, ?_⟩
    intro a ha b hb
    obtain ⟨e, he, rfl⟩ := List.mem_map.mp ha
    rw [List.mem_filter] at he
    obtain rfl := List.mem_singleton.mp hb
    simpa using he.2

theorem Holds.push_implementation (h : Holds ps c) (offset : Nat) (m : Member) :
    Holds (ps ++ [.implementation offset m]) (c.pushImplementation offset m) where
  settled := by
    obtain ⟨settled, hsettled⟩ := h.settled
    obtain ⟨waiting, hwaiting⟩ := h.waiting m.name
    rw [Callables.settled_pushImplementation]
    split
    . next hnone =>
      have hnil : waiting = [] := by
        rw [hwaiting.items_eq, List.map_eq_nil_iff] at hnone
        exact hnone
      have halone : ∀ place, ¬ WaitsAt ps m.name place := by
        intro place
        rw [← hwaiting.places_iff, hnil]
        simp
      refine ⟨_, hsettled.append_singleton [⟨ps.length, offset, m⟩] ?_ (List.pairwise_singleton _ _) ?_⟩
      . intro x hx
        obtain rfl := List.mem_singleton.mp hx
        apply Settles.implementation
        exact getElem?_append_singleton_eq_some_iff.mpr (Or.inr ⟨rfl, rfl⟩)
      . intro place
        simp [NewlySettled, halone]
    . next hsome =>
      rw [hwaiting.map_documentedBy]
      refine ⟨_, hsettled.append_singleton _ ?_ ?_ ?_⟩
      . intro x hx
        obtain ⟨y, hy, rfl⟩ := List.mem_map.mp hx
        exact hwaiting.settles hy offset
      . rw [List.pairwise_map]
        exact hwaiting.increasing
      . intro place
        have hplaces : (waiting.map (Placed.documentedBy m)).map Placed.place = waiting.map Placed.place := by
          rw [List.map_map]
          rfl
        obtain ⟨x, hx⟩ := List.exists_mem_of_ne_nil waiting (by
          rintro rfl
          exact hsome hwaiting.items_eq)
        have hsomeone : ∃ earlier, WaitsAt ps m.name earlier := ⟨x.place, hwaiting.waitsAt hx⟩
        rw [hplaces, hwaiting.places_iff]
        simp only [NewlySettled, ← not_exists, hsomeone, not_true_eq_false, and_false, or_false]
  waiting := by
    intro name
    rw [Callables.waiting_pushImplementation]
    obtain ⟨waiting, hwaiting⟩ := h.waiting name
    split
    . next hname =>
      subst hname
      exact ⟨[], awaits_append_implementation ps offset m⟩
    . next hname =>
      refine ⟨waiting, hwaiting.append_other Push.not_isOverload_implementation ?_⟩
      rw [Push.isImplementation_implementation]
      exact fun heq => hname heq.symm
  names := by
    unfold Callables.pushImplementation
    split
    . exact h.names
    . exact (List.filter_sublist.map _).nodup h.names

theorem Holds.push_plain (h : Holds ps c) (m : Member) : Holds (ps ++ [.plain m]) (c.pushPlain m) where
  settled := by
    obtain ⟨settled, hsettled⟩ := h.settled
    have hnew := hsettled.append_singleton (p := .plain m)
      [⟨ps.length, (c.settled.getLast?.map (·.1)).getD 0, m⟩] ?_ (List.pairwise_singleton _ _)
      (by simp [NewlySettled])
    . exact ⟨_, hnew⟩
    . intro x hx
      obtain rfl := List.mem_singleton.mp hx
      apply Settles.plain
      exact getElem?_append_singleton_eq_some_iff.mpr (Or.inr ⟨rfl, rfl⟩)
  waiting := by
    intro name
    obtain ⟨waiting, hwaiting⟩ := h.waiting name
    exact ⟨waiting, hwaiting.append_other Push.not_isOverload_plain Push.not_isImplementation_plain⟩
  names := h.names

theorem Holds.push (h : Holds ps c) (p : Push) : Holds (ps ++ [p]) (c.push p) := by
  cases p with
  | overload offset m => exact h.push_overload offset m
  | implementation offset m => exact h.push_implementation offset m
  | plain m => exact h.push_plain m

theorem holds_ofPushes (ps : List Push) : Holds ps (Callables.ofPushes ps) := by
  induction ps using List.reverseRecOn with
  | nil => exact holds_nil
  | append_singleton ps p ih =>
    have hpush : Callables.ofPushes (ps ++ [p]) = (Callables.ofPushes ps).push p := by
      unfold Callables.ofPushes
      rw [List.foldl_append, List.foldl_cons, List.foldl_nil]
    rw [hpush]
    exact ih.push p

end Histories

section Finish

namespace Callables

variable {c : Callables}

/--
What waits, by name.
-/
def byName (c : Callables) : List (String × List (Nat × Member)) :=
  c.pending.mergeSort fun a b => decide (a.1 ≤ b.1)

theorem pairwise_byName (h : (c.pending.map (·.1)).Nodup) : c.byName.Pairwise fun a b => a.1 < b.1 := by
  have hsorts : SortsBy (fun a b : String × List (Nat × Member) => decide (a.1 ≤ b.1)) (·.1) :=
    ⟨fun _ _ => decide_eq_true_iff⟩
  exact hsorts.pairwise_lt_mergeSort h

theorem mem_byName {e : String × List (Nat × Member)} : e ∈ c.byName ↔ e ∈ c.pending :=
  List.mem_mergeSort

theorem waiting_of_mem {e : String × List (Nat × Member)} (h : (c.pending.map (·.1)).Nodup) (he : e ∈ c.pending) :
    c.waiting e.1 = e.2 := by
  unfold waiting
  cases hfound : c.pending.find? (fun e' => e'.1 == e.1) with
  | none =>
    rw [List.find?_eq_none] at hfound
    exact absurd (beq_self_eq_true e.1) (hfound e he)
  | some e' =>
    have hname : e'.1 = e.1 := by simpa using List.find?_some hfound
    have heq : e' = e := List.inj_on_of_nodup_map h (List.mem_of_find?_eq_some hfound) he hname
    rw [heq]
    rfl

theorem exists_mem_of_waiting (h : c.waiting name ≠ []) : ∃ e ∈ c.pending, e.1 = name := by
  unfold waiting at h
  cases hfound : c.pending.find? (fun e => e.1 == name) with
  | none =>
    rw [hfound] at h
    exact absurd rfl h
  | some e => exact ⟨e, List.mem_of_find?_eq_some hfound, by simpa using List.find?_some hfound⟩

end Callables

/--
The overloads that remain of all that was read, by name.
-/
structure RemainsBy (ps : List Push) (items : List (Nat × Member)) (remaining : List Placed) : Prop where
  items_eq : items = remaining.map Placed.item
  remains : ∀ x ∈ remaining, Remains ps x
  places_iff : ∀ place, place ∈ remaining.map Placed.place ↔ ∃ name, WaitsAt ps name place
  grouped : remaining.Pairwise fun x y =>
    x.member.name < y.member.name ∨ x.member.name = y.member.name ∧ x.place < y.place

theorem Holds.remainsBy {c : Callables} (h : Holds ps c) :
    ∃ remaining, RemainsBy ps (c.byName.flatMap (·.2)) remaining := by
  obtain ⟨-, hwaiting, hnames⟩ := h
  choose waiting hwaiting using hwaiting
  have hmem : ∀ {e}, e ∈ c.byName → c.waiting e.1 = e.2 :=
    fun he => Callables.waiting_of_mem hnames (Callables.mem_byName.mp he)
  refine ⟨c.byName.flatMap fun e => waiting e.1, ?_, ?_, ?_, ?_⟩
  . rw [List.map_flatMap]
    apply List.flatMap_congr
    intro e he
    rw [← hmem he, (hwaiting e.1).items_eq]
  . intro x hx
    obtain ⟨e, -, hx⟩ := List.mem_flatMap.mp hx
    have hplace := (hwaiting e.1).overloads x hx
    refine ⟨hplace.1, ?_⟩
    rw [hplace.2]
    exact (hwaiting e.1).waitsAt hx
  . intro place
    constructor
    . intro hplace
      obtain ⟨x, hx, rfl⟩ := List.mem_map.mp hplace
      obtain ⟨e, -, hx⟩ := List.mem_flatMap.mp hx
      exact ⟨e.1, (hwaiting e.1).waitsAt hx⟩
    . rintro ⟨name, hwaits⟩
      rw [← (hwaiting name).places_iff] at hwaits
      obtain ⟨x, hx, rfl⟩ := List.mem_map.mp hwaits
      have hsome : c.waiting name ≠ [] := by
        rw [(hwaiting name).items_eq]
        simp [List.ne_nil_of_mem hx]
      obtain ⟨e, he, rfl⟩ := Callables.exists_mem_of_waiting hsome
      exact List.mem_map_of_mem (List.mem_flatMap.mpr ⟨e, Callables.mem_byName.mpr he, hx⟩)
  . rw [List.pairwise_flatMap]
    constructor
    . intro e _
      apply (hwaiting e.1).increasing.imp_of_mem
      intro x y hx hy hlt
      rw [((hwaiting e.1).overloads x hx).2, ((hwaiting e.1).overloads y hy).2]
      exact Or.inr ⟨rfl, hlt⟩
    . apply (Callables.pairwise_byName hnames).imp
      intro e e' hlt x hx y hy
      rw [((hwaiting e.1).overloads x hx).2, ((hwaiting e'.1).overloads y hy).2]
      exact Or.inl hlt

theorem RemainsBy.inOrder {remaining : List Placed} (h : RemainsBy ps items remaining) :
    remaining.Pairwise (InOrder ps) := by
  apply h.grouped.imp_of_mem
  intro x y hx hy hxy name hxname hyname
  have hxeq := hxname.name_eq (h.remains x hx).2.1
  have hyeq := hyname.name_eq (h.remains y hy).2.1
  rcases hxy with hlt | ⟨-, hlt⟩
  . rw [← hxeq, ← hyeq] at hlt
    exact absurd hlt (String.lt_irrefl name)
  . exact hlt

/--
What is settled and what remains of all that was read are all that is given back, each once.
-/
theorem SettledBy.givesBack {items' : List (Nat × Member)} {settled remaining : List Placed}
    (h : SettledBy ps items settled) (h' : RemainsBy ps items' remaining) : GivesBack ps settled remaining := by
  have hplaces : ∀ place,
      place ∈ (settled ++ remaining).map Placed.place ↔ SettledAt ps place ∨ ∃ name, WaitsAt ps name place := by
    intro place
    rw [List.map_append, List.mem_append, h.places_iff, h'.places_iff]
  have hsettled : ∀ x ∈ settled, SettledAt ps x.place :=
    fun x hx => (h.places_iff x.place).mp (List.mem_map_of_mem hx)
  constructor
  . exact h.settles
  . exact h'.remains
  . rw [List.map_append, List.nodup_append]
    refine ⟨h.once, ?_, ?_⟩
    . rw [List.Nodup, List.pairwise_map]
      apply h'.inOrder.imp_of_mem
      intro x y hx hy hxy heq
      have hname := (h'.remains x hx).2.1
      have hlt := hxy _ hname (heq ▸ hname)
      omega
    . rintro place hold _ hremains rfl
      rw [h.places_iff] at hold
      obtain ⟨name, hwaits⟩ := (h'.places_iff place).mp hremains
      have := hold.lt_of_waitsAt hwaits.1 hwaits
      omega
  . intro name place hname
    rw [hplaces]
    by_cases hwaits : WaitsAt ps name place
    . exact Or.inr ⟨name, hwaits⟩
    . exact Or.inl (SettledAt.of_not_waitsAt hname hwaits)
  . intro m place hplain
    rw [hplaces]
    exact Or.inl (SettledAt.plain hplain)
  . intro offset m place himpl
    rw [hplaces]
    constructor
    . rintro (hold | ⟨name, ⟨offset', m', hover, -⟩, -⟩)
      . cases hold with
        | plain hplain =>
          rw [himpl] at hplain
          exact absurd hplain (by simp)
        | implementation himpl' halone =>
          rw [himpl, Option.some.injEq, Push.implementation.injEq] at himpl'
          rw [himpl'.2]
          exact halone
        | overload hover =>
          obtain ⟨offset', m', hover, -⟩ := hover
          rw [himpl] at hover
          exact absurd hover (by simp)
      . rw [himpl] at hover
        exact absurd hover (by simp)
    . intro halone
      exact Or.inl (SettledAt.implementation himpl halone)
  . exact h'.places_iff
  . rw [List.pairwise_append]
    refine ⟨h.ordered, h'.inOrder, ?_⟩
    intro x hx y hy name hxname hyname
    have hwaits := (h'.remains y hy).2
    rw [← hyname.name_eq hwaits.1] at hwaits
    exact (hsettled x hx).lt_of_waitsAt hxname hwaits
  . exact h'.grouped

/--
Whatever was read in a scope, every overload and every plain member comes back once, and an implementation comes back if
no overload waited for it; what waits to the end comes last, by name.
-/
theorem finish_givesBack (ps : List Push) :
    ∃ settled remaining, (Callables.ofPushes ps).finish = (settled ++ remaining).map Placed.item ∧
      GivesBack ps settled remaining := by
  have hholds := holds_ofPushes ps
  obtain ⟨settled, hsettled⟩ := hholds.settled
  obtain ⟨remaining, hremaining⟩ := hholds.remainsBy
  refine ⟨settled, remaining, ?_, hsettled.givesBack hremaining⟩
  rw [List.map_append, ← hsettled.items_eq, ← hremaining.items_eq]
  rfl

end Finish

end ApiSurface.Python
