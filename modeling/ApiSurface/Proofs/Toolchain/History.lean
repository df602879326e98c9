import ApiSurface.Proofs.Toolchain.Cache

/-!
This module contains proofs about what is remembered of the analyzers over any course of operations, while what a search
would find may change between any two of them. Each search and each dropping is written down as it happens, and what is
remembered of a language is the last thing that was written down about it.
-/

namespace ApiSurface
namespace AvailabilityCache

section Effects

variable {μ : Type → Type} [Monad μ]

/--
Search for a language's analyzer by a search that may have effects, and remember the answer.
-/
def resolveForcedM (c : AvailabilityCache) (search : Language → μ Resolution) (l : Language) :
    μ (Resolution × AvailabilityCache) := do
  let r ← search l
  return (r, c.insert l r)

/--
What is known of a language's analyzer; it is searched for, with the effects that this has, if nothing is.
-/
def resolveM (c : AvailabilityCache) (search : Language → μ Resolution) (l : Language) :
    μ (Resolution × AvailabilityCache) :=
  match c.get? l with
  | some r => return (r, c)
  | none => c.resolveForcedM search l

end Effects

/--
Something that happens to what is remembered.
-/
inductive Event where
  /-- A language's analyzer is searched for. -/
  | probe (l : Language) (r : Resolution)
  /-- What was found for one language is dropped, or for all. -/
  | drop (l : Option Language)
deriving DecidableEq, Repr

/--
A dropping is of a language, or of all.
-/
def Covers (dropped : Option Language) (l : Language) : Prop :=
  dropped = none ∨ dropped = some l

/--
An event says something of a language.
-/
def Event.Concerns (l : Language) : Event → Prop
  | probe l' _ => l' = l
  | drop dropped => Covers dropped l

@[simp]
theorem Event.concerns_probe {l l' : Language} {r : Resolution} : (probe l' r).Concerns l ↔ l' = l :=
  Iff.rfl

@[simp]
theorem Event.concerns_drop {l : Language} {dropped : Option Language} : (drop dropped).Concerns l ↔ Covers dropped l :=
  Iff.rfl

/--
The last event that concerns a language is a search for its analyzer, with this answer.
-/
def LatestProbe (history : List Event) (l : Language) (r : Resolution) : Prop :=
  ∃ before after, history = before ++ .probe l r :: after ∧ ∀ e ∈ after, ¬ e.Concerns l

section LatestProbe

variable {history : List Event} {l : Language} {r r' : Resolution} {e : Event}

theorem latestProbe_append_of_not_concerns (h : ¬ e.Concerns l) :
    LatestProbe (history ++ [e]) l r ↔ LatestProbe history l r := by
  constructor
  . rintro ⟨before, after, heq, hafter⟩
    rcases List.eq_nil_or_concat after with rfl | ⟨after, e', rfl⟩
    . obtain ⟨-, hlast⟩ := List.append_inj' heq rfl
      obtain rfl := List.cons.inj hlast |>.1
      exact absurd rfl h
    . rw [List.concat_eq_append] at heq hafter
      rw [← List.cons_append, ← List.append_assoc] at heq
      refine ⟨before, after, (List.append_inj' heq rfl).1, ?_⟩
      intro e he
      exact hafter e (List.mem_append_left _ he)
  . rintro ⟨before, after, rfl, hafter⟩
    refine ⟨before, after ++ [e], by simp, ?_⟩
    intro e' he'
    rw [List.mem_append, List.mem_singleton] at he'
    rcases he' with he' | rfl
    . exact hafter e' he'
    . exact h

/--
An event that concerns a language hides all that happened before.
-/
theorem latestProbe_append_of_concerns (h : e.Concerns l) :
    LatestProbe (history ++ [e]) l r ↔ e = .probe l r := by
  constructor
  . rintro ⟨before, after, heq, hafter⟩
    rcases List.eq_nil_or_concat after with rfl | ⟨after, e', rfl⟩
    . obtain ⟨-, hlast⟩ := List.append_inj' heq rfl
      exact List.cons.inj hlast |>.1
    . rw [List.concat_eq_append] at heq hafter
      rw [← List.cons_append, ← List.append_assoc] at heq
      obtain rfl := List.cons.inj (List.append_inj' heq rfl).2 |>.1
      exact absurd h (hafter e (List.mem_append_right _ (List.mem_singleton_self e)))
  . rintro rfl
    exact ⟨history, [], rfl, by simp⟩

end LatestProbe

section Invalidate

variable {c : AvailabilityCache} {dropped : Option Language} {l : Language}

theorem get?_invalidate_of_covers (h : Covers dropped l) : (c.invalidate dropped).get? l = none := by
  rcases h with rfl | rfl
  . rfl
  . exact get?_erase_self c l

theorem get?_invalidate_of_not_covers (h : ¬ Covers dropped l) : (c.invalidate dropped).get? l = c.get? l := by
  cases dropped with
  | none => exact absurd (Or.inl rfl) h
  | some l' =>
    apply get?_erase_of_ne
    rintro rfl
    exact h (Or.inr rfl)

end Invalidate

/--
What can be asked of the memory.
-/
inductive Operation where
  | resolve (l : Language)
  | resolveForced (l : Language)
  | invalidate (l : Option Language)
deriving DecidableEq, Repr

namespace Operation

/--
An operation is on a language, or on all.
-/
def Concerns (l : Language) : Operation → Prop
  | resolve l' => l' = l
  | resolveForced l' => l' = l
  | invalidate dropped => Covers dropped l

/--
An operation replaces or drops what is known of a language, whatever that is.
-/
def Replaces (l : Language) : Operation → Prop
  | resolve _ => False
  | resolveForced l' => l' = l
  | invalidate dropped => Covers dropped l

end Operation

/--
An operation, and what a search would find at its time.
-/
structure Request where
  operation : Operation
  search : Language → Resolution

/--
What is answered to a request, if it asks for an answer, and what is remembered from then on.
-/
def perform (c : AvailabilityCache) (q : Request) : Option Resolution × AvailabilityCache :=
  match q.operation with
  | .resolve l =>
    let (r, c) := c.resolve q.search l
    (some r, c)
  | .resolveForced l =>
    let (r, c) := c.resolveForced q.search l
    (some r, c)
  | .invalidate l => (none, c.invalidate l)

/--
A search that is written down.
-/
def noted (search : Language → Resolution) (l : Language) : StateM (List Event) Resolution := do
  modify (· ++ [.probe l (search l)])
  return search l

/--
What is answered to a request, and what is remembered from then on, with every search and every dropping written down.
-/
def performNoted (c : AvailabilityCache) (q : Request) :
    StateM (List Event) (Option Resolution × AvailabilityCache) :=
  match q.operation with
  | .resolve l => do
    let (r, c) ← c.resolveM (noted q.search) l
    return (some r, c)
  | .resolveForced l => do
    let (r, c) ← c.resolveForcedM (noted q.search) l
    return (some r, c)
  | .invalidate l => do
    modify (· ++ [.drop l])
    return (none, c.invalidate l)

/--
A course of operations: what is remembered, and what happened.
-/
structure Session where
  memory : AvailabilityCache := {}
  history : List Event := []
deriving DecidableEq, Repr

namespace Session

/--
What is answered to a request, and how the course goes on.
-/
def perform (s : Session) (q : Request) : Option Resolution × Session :=
  let ((answer, memory), history) := (s.memory.performNoted q).run s.history
  (answer, { memory := memory, history := history })

/--
The course of some requests, from the start on.
-/
def after (qs : List Request) : Session :=
  qs.foldl (fun s q => (s.perform q).2) {}

/--
The course goes on with a search for a language's analyzer, which is remembered.
-/
def probed (s : Session) (l : Language) (r : Resolution) : Session :=
  { memory := s.memory.insert l r, history := s.history ++ [.probe l r] }

variable {s : Session} {q : Request} {l : Language} {r : Resolution} {search : Language → Resolution}

section Step

theorem perform_resolve_of_known (h : s.memory.get? l = some r) : s.perform ⟨.resolve l, search⟩ = (some r, s) := by
  simp only [perform, performNoted, resolveM, h]
  rfl

theorem perform_resolve_of_unknown (h : s.memory.get? l = none) :
    s.perform ⟨.resolve l, search⟩ = (some (search l), s.probed l (search l)) := by
  simp only [perform, performNoted, resolveM, h]
  rfl

theorem perform_resolveForced :
    s.perform ⟨.resolveForced l, search⟩ = (some (search l), s.probed l (search l)) :=
  rfl

theorem perform_invalidate (dropped : Option Language) :
    s.perform ⟨.invalidate dropped, search⟩ =
      (none, { memory := s.memory.invalidate dropped, history := s.history ++ [.drop dropped] }) :=
  rfl

/--
Writing down what happens changes no answer and nothing that is remembered.
-/
theorem perform_eq (s : Session) (q : Request) :
    (s.perform q).1 = (s.memory.perform q).1 ∧ (s.perform q).2.memory = (s.memory.perform q).2 := by
  obtain ⟨operation, search⟩ := q
  cases operation with
  | resolve l =>
    cases hl : s.memory.get? l with
    | none => simp [perform_resolve_of_unknown hl, AvailabilityCache.perform, resolve, resolveForced, probed, hl]
    | some r => simp [perform_resolve_of_known hl, AvailabilityCache.perform, resolve, hl]
  | resolveForced l => exact ⟨rfl, rfl⟩
  | invalidate dropped => exact ⟨rfl, rfl⟩

end Step

section Memory

/--
What is remembered is what was found last.
-/
def Remembers (s : Session) : Prop :=
  ∀ l r, s.memory.get? l = some r ↔ LatestProbe s.history l r

theorem Remembers.start : Remembers {} := by
  intro l r
  constructor
  . intro h
    cases h
  . rintro ⟨before, after, heq, -⟩
    simp at heq

theorem Remembers.probed (h : s.Remembers) (l : Language) (r : Resolution) : (s.probed l r).Remembers := by
  intro l' r'
  by_cases hl : l = l'
  . obtain rfl := hl
    rw [Session.probed, latestProbe_append_of_concerns (Event.concerns_probe.mpr rfl), get?_insert_self]
    simp
  . rw [Session.probed, latestProbe_append_of_not_concerns (mt Event.concerns_probe.mp hl), get?_insert_of_ne (Ne.symm hl)]
    exact h l' r'

theorem Remembers.perform (h : s.Remembers) (q : Request) : (s.perform q).2.Remembers := by
  obtain ⟨operation, search⟩ := q
  cases operation with
  | resolve l =>
    cases hl : s.memory.get? l with
    | none =>
      rw [perform_resolve_of_unknown hl]
      exact h.probed l _
    | some r =>
      -- nothing is searched for, so nothing is written down
      rw [perform_resolve_of_known hl]
      exact h
  | resolveForced l =>
    rw [perform_resolveForced]
    exact h.probed l _
  | invalidate dropped =>
    rw [perform_invalidate]
    intro l r
    by_cases hcovers : Covers dropped l
    . rw [get?_invalidate_of_covers hcovers, latestProbe_append_of_concerns (Event.concerns_drop.mpr hcovers)]
      simp
    . rw [get?_invalidate_of_not_covers hcovers,
        latestProbe_append_of_not_concerns (mt Event.concerns_drop.mp hcovers)]
      exact h l r

theorem after_append (qs qs' : List Request) :
    after (qs ++ qs') = qs'.foldl (fun s q => (s.perform q).2) (after qs) := by
  unfold after
  rw [List.foldl_append]

theorem remembers_foldl (qs : List Request) (h : s.Remembers) :
    (qs.foldl (fun s q => (s.perform q).2) s).Remembers := by
  induction qs generalizing s with
  | nil => exact h
  | cons q qs ih => exact ih (h.perform q)

theorem remembers_after (qs : List Request) : (after qs).Remembers :=
  remembers_foldl qs .start

end Memory

section Frame

/--
An operation on another language leaves what is known of this one.
-/
theorem get?_perform_of_not_concerns (h : ¬ q.operation.Concerns l) :
    (s.perform q).2.memory.get? l = s.memory.get? l := by
  obtain ⟨operation, search⟩ := q
  cases operation with
  | resolve l' =>
    rw [(s.perform_eq _).2]
    exact get?_resolve_of_ne _ _ (Ne.symm h)
  | resolveForced l' =>
    rw [perform_resolveForced]
    exact get?_insert_of_ne (Ne.symm h) _ _
  | invalidate dropped =>
    rw [perform_invalidate]
    exact get?_invalidate_of_not_covers h

/--
What is known of a language stays until it is searched for again by force or dropped.
-/
theorem get?_perform_of_known (h : s.memory.get? l = some r) (hq : ¬ q.operation.Replaces l) :
    (s.perform q).2.memory.get? l = some r := by
  by_cases hconcerns : q.operation.Concerns l
  . obtain ⟨operation, search⟩ := q
    cases operation with
    | resolve l' =>
      obtain rfl : l' = l := hconcerns
      rw [perform_resolve_of_known h]
      exact h
    | resolveForced l' => exact absurd hconcerns hq
    | invalidate dropped => exact absurd hconcerns hq
  . rw [get?_perform_of_not_concerns hconcerns, h]

theorem get?_foldl_of_known (qs : List Request) (h : s.memory.get? l = some r)
    (hqs : ∀ q ∈ qs, ¬ q.operation.Replaces l) :
    (qs.foldl (fun s q => (s.perform q).2) s).memory.get? l = some r := by
  induction qs generalizing s with
  | nil => exact h
  | cons q qs ih =>
    apply ih
    . exact get?_perform_of_known h (hqs q List.mem_cons_self)
    . intro q' hq'
      exact hqs q' (List.mem_cons_of_mem q hq')

theorem perform_resolve_congr {s' : Session} (h : s'.memory.get? l = s.memory.get? l) :
    (s'.perform ⟨.resolve l, search⟩).1 = (s.perform ⟨.resolve l, search⟩).1 := by
  cases hl : s.memory.get? l with
  | none => rw [perform_resolve_of_unknown hl, perform_resolve_of_unknown (h.trans hl)]
  | some r => rw [perform_resolve_of_known hl, perform_resolve_of_known (h.trans hl)]

end Frame

/--
After any course of operations, whatever a search would find at each of them: what is known of a language is the answer
of the latest search for it that nothing has dropped since, and it is given without a search; the language is searched
for, and the answer remembered, exactly if there is no such search. A forced search always takes place, and its answer is
given until another one or a dropping comes. No operation on another language changes what is given, unless it drops
all. All this is said of the operations that write down what happens; they give and remember the same as the plain ones.
-/
theorem resolve_gives_latest_probe (qs : List Request) (l : Language) (search : Language → Resolution) :
    (∀ r, LatestProbe (after qs).history l r → (after qs).perform ⟨.resolve l, search⟩ = (some r, after qs)) ∧
    ((¬ ∃ r, LatestProbe (after qs).history l r) →
      (after qs).perform ⟨.resolve l, search⟩ = (some (search l), (after qs).probed l (search l))) ∧
    (after qs).perform ⟨.resolveForced l, search⟩ = (some (search l), (after qs).probed l (search l)) ∧
    (∀ rest later, (∀ q ∈ rest, ¬ q.operation.Replaces l) →
      ((after (qs ++ ⟨.resolveForced l, search⟩ :: rest)).perform ⟨.resolve l, later⟩).1 = some (search l)) ∧
    (∀ q, ¬ q.operation.Concerns l →
      (((after qs).perform q).2.perform ⟨.resolve l, search⟩).1 = ((after qs).perform ⟨.resolve l, search⟩).1) ∧
    (∀ q, ((after qs).perform q).1 = ((after qs).memory.perform q).1 ∧
      ((after qs).perform q).2.memory = ((after qs).memory.perform q).2) := by
  refine ⟨?_, ?_, perform_resolveForced, ?_, ?_, perform_eq (after qs)⟩
  . intro r h
    exact perform_resolve_of_known ((remembers_after qs l r).mpr h)
  . intro h
    apply perform_resolve_of_unknown
    rw [Option.eq_none_iff_forall_ne_some]
    intro r hr
    exact h ⟨r, (remembers_after qs l r).mp hr⟩
  . intro rest later hrest
    rw [after_append, List.foldl_cons, perform_resolveForced,
      perform_resolve_of_known (get?_foldl_of_known rest (get?_insert_self _ l _) hrest)]
  . intro q hq
    exact perform_resolve_congr (get?_perform_of_not_concerns hq)

end Session

end AvailabilityCache
end ApiSurface
