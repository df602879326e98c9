import Mathlib.Data.List.Basic
import Mathlib.Logic.Relation
import ApiSurface.Extraction.ErrorTypes
import ApiSurface.Proofs.Reference.Resolution

/-!
This module contains the theory of the search for error types, in hierarchies that may have cycles. Every type that
the search marks inherits from an error. On a cycle it can miss types, and which ones depends on the type it starts
with; types that inherit from an error off the cycles are marked in whatever order the types are visited.
-/

namespace ApiSurface

open Text

/--
Every declared type with its key.
-/
def declarations (nss : List Namespace) : List (TypeKey × TypeEntry) :=
  nss.flatMap fun ns => ns.types.map fun t => (⟨ns.name, t.name⟩, t)

theorem keys_ofNamespaces_eq (nss : List Namespace) :
    (TypeTable.ofNamespaces nss).keys = (declarations nss).map (·.1) := by
  simp [TypeTable.ofNamespaces, declarations, List.map_flatMap, Function.comp_def]

theorem mem_typeKeys {nss : List Namespace} {k : TypeKey} : k ∈ typeKeys nss ↔ ∃ t, (k, t) ∈ declarations nss := by
  have : typeKeys nss = (TypeTable.ofNamespaces nss).keys.eraseDups := rfl
  rw [this, List.mem_eraseDups, keys_ofNamespaces_eq]
  simp

theorem mem_declarations {nss : List Namespace} {ns : Namespace} {t : TypeEntry} (hns : ns ∈ nss)
    (ht : t ∈ ns.types) : (⟨ns.name, t.name⟩, t) ∈ declarations nss := by
  simp only [declarations, List.mem_flatMap, List.mem_map]
  exact ⟨ns, hns, t, ht, rfl⟩

namespace Hierarchy

/--
The parent denotes no local type, and outside the tree it is the root of error types.
-/
def ErrorParent (c : Conventions) (h : Hierarchy) (k : TypeKey) (parent : String) : Prop :=
  h.resolve k parent = [] ∧ c.isErrorRoot (parentHead parent) = true

/--
One of the parents of the type `k` denotes the local type `p`. Of several declarations of `k` the last one counts.
-/
def Extends (h : Hierarchy) (nss : List Namespace) (k p : TypeKey) : Prop :=
  ∃ parent ∈ ErrorSearch.parentsOf nss k, p ∈ h.resolve k parent

/--
The type `k` is an error without regard to other types of the tree: by what it declares, or by a parent outside.
-/
def OwnError (c : Conventions) (h : Hierarchy) (nss : List Namespace) (k : TypeKey) : Prop :=
  (∃ t, (k, t) ∈ declarations nss ∧ c.isErrorType t = true) ∨
  ∃ parent ∈ ErrorSearch.parentsOf nss k, h.ErrorParent c k parent

/--
A chain of types, each of which extends the next, leads from `k` to an error.
-/
def InheritsError (c : Conventions) (h : Hierarchy) (nss : List Namespace) (k : TypeKey) : Prop :=
  ∃ s, Relation.ReflTransGen (h.Extends nss) k s ∧ h.OwnError c nss s

/--
The type `k` extends `p`, and no chain leads from `k` back to itself.
-/
def ExtendsOffCycle (h : Hierarchy) (nss : List Namespace) (k p : TypeKey) : Prop :=
  h.Extends nss k p ∧ ¬ Relation.TransGen (h.Extends nss) k k

/--
A chain leads from `k` to an error on which no type but the error itself can be on a cycle.
-/
def InheritsOffCycle (c : Conventions) (h : Hierarchy) (nss : List Namespace) (k : TypeKey) : Prop :=
  ∃ s, Relation.ReflTransGen (h.ExtendsOffCycle nss) k s ∧ h.OwnError c nss s

variable {c : Conventions} {h : Hierarchy} {nss : List Namespace} {k p : TypeKey}

theorem InheritsError.of_extends (hstep : h.Extends nss k p) (hp : h.InheritsError c nss p) :
    h.InheritsError c nss k := by
  obtain ⟨s, hchain, hs⟩ := hp
  exact ⟨s, Relation.ReflTransGen.head hstep hchain, hs⟩

theorem InheritsOffCycle.of_extends (hstep : h.ExtendsOffCycle nss k p) (hp : h.InheritsOffCycle c nss p) :
    h.InheritsOffCycle c nss k := by
  obtain ⟨s, hchain, hs⟩ := hp
  exact ⟨s, Relation.ReflTransGen.head hstep hchain, hs⟩

theorem extends_of_offCycle (hchain : Relation.ReflTransGen (h.ExtendsOffCycle nss) k p) :
    Relation.ReflTransGen (h.Extends nss) k p := by
  induction hchain with
  | refl => exact Relation.ReflTransGen.refl
  | tail _ hstep ih => exact ih.tail hstep.1

theorem mem_typeKeys_of_mem_resolve {imports : List (String × List Import)} {parent : String}
    (hp : p ∈ (ofNamespaces nss imports).resolve k parent) : p ∈ typeKeys nss := by
  have hkeys : p ∈ (TypeTable.ofNamespaces nss).keys := by
    unfold resolve at hp
    dsimp only at hp
    split at hp
    . next key himported =>
      rw [List.mem_singleton] at hp
      subst hp
      unfold imported? at himported
      split at himported
      . simp at himported
      . rw [Option.filter_eq_some_iff] at himported
        exact TypeTable.contains_iff_mem.mp himported.2
    . exact TypeTable.mem_keys_of_mem_resolveName (TypeTable.wellFormed_ofNamespaces nss) hp
  exact List.mem_eraseDups.mpr hkeys

end Hierarchy

namespace ErrorSearch

variable {c : Conventions} {h : Hierarchy} {nss : List Namespace} {s m s' : ErrorSearch} {key k : TypeKey}

@[simp]
theorem answer?_nil (visiting : List TypeKey) (k : TypeKey) : answer? ⟨[], visiting⟩ k = none := by
  rfl

@[simp]
theorem answer?_cons (e : TypeKey × Bool) (known : List (TypeKey × Bool)) (visiting : List TypeKey) (k : TypeKey) :
    answer? ⟨e :: known, visiting⟩ k = if e.1 = k then some e.2 else answer? ⟨known, visiting⟩ k := by
  unfold answer?
  dsimp only
  rw [List.find?_cons]
  split
  . next heq => simp_all
  . next hne => simp_all

theorem parentsOf_eq_getLast (nss : List Namespace) (k : TypeKey) :
    parentsOf nss k
      =
    ((declarations nss).filterMap fun d => if k == d.1 then some d.2.parents else none).getLast?.getD [] := by
  simp [parentsOf, declarations, List.filterMap_flatMap, List.filterMap_map]

theorem exists_of_mem_parentsOf {parent : String} (hparent : parent ∈ parentsOf nss k) :
    ∃ t, (k, t) ∈ declarations nss ∧ parent ∈ t.parents := by
  rw [parentsOf_eq_getLast] at hparent
  cases hlast : ((declarations nss).filterMap fun d => if k == d.1 then some d.2.parents else none).getLast? with
  | none =>
    rw [hlast] at hparent
    simp at hparent
  | some ps =>
    rw [hlast, Option.getD_some] at hparent
    have hmem := List.mem_of_getLast? hlast
    simp only [List.mem_filterMap, Option.ite_none_right_eq_some, beq_iff_eq, Option.some.injEq] at hmem
    obtain ⟨d, hd, rfl, rfl⟩ := hmem
    exact ⟨d.2, hd, hparent⟩

/--
A type at which the search is: its answer is still open.
-/
def Pending (s : ErrorSearch) (k : TypeKey) : Prop :=
  k ∈ s.visiting ∧ s.answer? k = none

/--
The types that the search has not come to.
-/
def unvisited (nss : List Namespace) (s : ErrorSearch) : List TypeKey :=
  (typeKeys nss).filter (fun k => !s.visiting.contains k)

/--
The search has come to the type between two of its states.
-/
def Entered (s s' : ErrorSearch) (k : TypeKey) : Prop :=
  k ∈ s'.visiting ∧ k ∉ s.visiting

/--
A search that has gone from `s` to `s'` without success is done with the type: it has come to it, or the type was open
or known to be no error before.
-/
def Dismissed (s s' : ErrorSearch) (k : TypeKey) : Prop :=
  Entered s s' k ∨ s.Pending k ∨ s.answer? k = some false

/--
How a part of the search changes its state. It leaves no type open that was not open before, and it answers only for
types to which it has come.
-/
structure Advances (s s' : ErrorSearch) : Prop where
  visiting_subset : ∀ k ∈ s.visiting, k ∈ s'.visiting
  pending_before : ∀ k, s'.Pending k → s.Pending k
  answer_kept : ∀ k b, s.answer? k = some b → s'.answer? k = some b
  answer_new : ∀ k b, s'.answer? k = some b → s.answer? k = some b ∨ Entered s s' k

theorem Entered.extend (hk : Entered s m k) (hm : Advances m s') : Entered s s' k :=
  ⟨hm.visiting_subset k hk.1, hk.2⟩

theorem Entered.of_later (hm : Advances s m) (hk : Entered m s' k) : Entered s s' k :=
  ⟨hk.1, mt (hm.visiting_subset k) hk.2⟩

theorem Advances.refl (s : ErrorSearch) : Advances s s :=
  ⟨fun _ hk => hk, fun _ hk => hk, fun _ _ hk => hk, fun _ _ hk => Or.inl hk⟩

theorem Advances.trans (hm : Advances s m) (hs' : Advances m s') : Advances s s' where
  visiting_subset := by
    intro k hk
    exact hs'.visiting_subset k (hm.visiting_subset k hk)
  pending_before := by
    intro k hk
    exact hm.pending_before k (hs'.pending_before k hk)
  answer_kept := by
    intro k b hk
    exact hs'.answer_kept k b (hm.answer_kept k b hk)
  answer_new := by
    intro k b hk
    cases hs'.answer_new k b hk with
    | inl hk => exact (hm.answer_new k b hk).imp_right (fun hentered => hentered.extend hs')
    | inr hentered => exact Or.inr (hentered.of_later hm)

theorem Dismissed.extend (hk : Dismissed s m k) (hs' : Advances m s') : Dismissed s s' k :=
  hk.imp_left (fun hentered => hentered.extend hs')

theorem Dismissed.of_later (hm : Advances s m) (hs' : Advances m s') (hk : Dismissed m s' k) : Dismissed s s' k := by
  rcases hk with hentered | hopen | hcleared
  . exact Or.inl (hentered.of_later hm)
  . exact Or.inr (Or.inl (hm.pending_before k hopen))
  . cases hm.answer_new k false hcleared with
    | inl hcleared => exact Or.inr (Or.inr hcleared)
    | inr hentered => exact Or.inl (hentered.extend hs')

theorem length_unvisited_le (hadv : Advances s s') : (unvisited nss s').length ≤ (unvisited nss s).length := by
  apply List.Sublist.length_le
  apply List.monotone_filter_right
  intro k hk
  simp only [Bool.not_eq_true', List.contains_eq_mem, decide_eq_false_iff_not] at hk ⊢
  exact fun hmem => hk (hadv.visiting_subset k hmem)

/--
No error is among the types to which the search has come between the two states, and it is done with all that they
extend.
-/
def Exhausted (c : Conventions) (h : Hierarchy) (nss : List Namespace) (s s' : ErrorSearch) : Prop :=
  ∀ k, Entered s s' k → ¬ h.OwnError c nss k ∧ ∀ p, h.Extends nss k p → Dismissed s s' p

theorem Exhausted.refl (c : Conventions) (h : Hierarchy) (nss : List Namespace) (s : ErrorSearch) :
    Exhausted c h nss s s := by
  intro k hk
  exact absurd hk.1 hk.2

theorem Exhausted.trans (hm : Advances s m) (hs' : Advances m s') (hfirst : Exhausted c h nss s m)
    (hlater : Exhausted c h nss m s') : Exhausted c h nss s s' := by
  intro k hk
  by_cases hmem : k ∈ m.visiting
  . obtain ⟨hown, hparents⟩ := hfirst k ⟨hmem, hk.2⟩
    exact ⟨hown, fun p hp => (hparents p hp).extend hs'⟩
  . obtain ⟨hown, hparents⟩ := hlater k ⟨hk.1, hmem⟩
    exact ⟨hown, fun p hp => (hparents p hp).of_later hm hs'⟩

theorem Exhausted.entered_of_chain {R : TypeKey → TypeKey → Prop} (hex : Exhausted c h nss s s')
    (hkey : Entered s s' key) (hR : ∀ a b, R a b → h.Extends nss a b) {e : TypeKey}
    (hnew : ∀ a b, Relation.ReflTransGen R key a → R a b → Relation.ReflTransGen R b e →
      ¬ s.Pending b ∧ s.answer? b ≠ some false)
    (hchain : Relation.ReflTransGen R key e) : Entered s s' e := by
  have hwalk : ∀ b, Relation.ReflTransGen R key b → Relation.ReflTransGen R b e → Entered s s' b := by
    intro b hb
    induction hb with
    | refl => exact fun _ => hkey
    | @tail a b ha hstep ih =>
      intro hrest
      obtain ⟨hopen, hcleared⟩ := hnew a b ha hstep hrest
      have hentered := ih (Relation.ReflTransGen.head hstep hrest)
      exact ((hex a hentered).2 b (hR a b hstep)).resolve_right (not_or.mpr ⟨hopen, hcleared⟩)
  exact hwalk e hchain Relation.ReflTransGen.refl

/--
What holds at every moment of the search: a type that is marked inherits from an error, one that is known to be no
error does not do so off the cycles, and the types that say of themselves that they are errors are known.
-/
structure Invariant (c : Conventions) (h : Hierarchy) (nss : List Namespace) (s : ErrorSearch) : Prop where
  marked : ∀ k, s.answer? k = some true → h.InheritsError c nss k
  cleared : ∀ k, s.answer? k = some false → ¬ h.InheritsOffCycle c nss k
  declared_known : ∀ k t, (k, t) ∈ declarations nss → c.isErrorType t = true → s.answer? k ≠ none

theorem Invariant.setVisiting (hinv : Invariant c h nss s) (visiting : List TypeKey) :
    Invariant c h nss { s with visiting := visiting } :=
  ⟨hinv.marked, hinv.cleared, hinv.declared_known⟩

theorem not_inheritsOffCycle_of_exhausted (hinv : Invariant c h nss s)
    (hpending : ∀ p, s.Pending p → Relation.ReflTransGen (h.Extends nss) p key) (hex : Exhausted c h nss s s')
    (hkey : Entered s s' key) : ¬ h.InheritsOffCycle c nss key := by
  rintro ⟨e, hchain, he⟩
  have hentered : Entered s s' e := by
    apply hex.entered_of_chain hkey (fun _ _ hstep => hstep.1) _ hchain
    intro a b ha hstep hrest
    constructor
    . -- an open type leads to `key`, so `a` would be on a cycle
      intro hopen
      have hback := hpending b hopen
      exact hstep.2 (Relation.TransGen.head' hstep.1 (hback.trans (Hierarchy.extends_of_offCycle ha)))
    . intro hcleared
      exact hinv.cleared b hcleared ⟨e, hrest, he⟩
  exact (hex e hentered).1 he

theorem not_inheritsError_of_exhausted (hopen : ∀ k, ¬ s.Pending k) (hcleared : ∀ k, s.answer? k ≠ some false)
    (hex : Exhausted c h nss s s') (hkey : Entered s s' key) : ¬ h.InheritsError c nss key := by
  rintro ⟨e, hchain, he⟩
  have hentered : Entered s s' e := by
    apply hex.entered_of_chain hkey (fun _ _ hstep => hstep) _ hchain
    intro a b _ _ _
    exact ⟨hopen b, hcleared b⟩
  exact (hex e hentered).1 he

/--
What a part of the search does: it says yes only if `upper` holds, and if it says no, it has exhausted what it has
come to and `missed` is true of the types it is done with.
-/
structure Answers (c : Conventions) (h : Hierarchy) (nss : List Namespace) (upper : Prop)
    (missed : (TypeKey → Prop) → Prop) (s : ErrorSearch) (r : Bool × ErrorSearch) : Prop where
  upper_of_yes : r.1 = true → upper
  missed_of_no : r.1 = false → missed (Dismissed s r.2)
  exhausted_of_no : r.1 = false → Exhausted c h nss s r.2
  invariant : Invariant c h nss r.2
  advances : Advances s r.2

theorem Answers.unchanged {upper : Prop} {missed : (TypeKey → Prop) → Prop} {b : Bool} (hinv : Invariant c h nss s)
    (hupper : b = true → upper) (hmissed : b = false → missed (Dismissed s s)) :
    Answers c h nss upper missed s (b, s) :=
  ⟨hupper, hmissed, fun _ => Exhausted.refl c h nss s, hinv, Advances.refl s⟩

/--
The first of the items on which a part of the search says yes.
-/
def firstHit (step : α → ErrorSearch → Bool × ErrorSearch) : List α → ErrorSearch → Bool × ErrorSearch
  | [], s => (false, s)
  | a :: items, s => if (step a s).1 then (true, (step a s).2) else firstHit step items (step a s).2

theorem firstHit_answers {step : α → ErrorSearch → Bool × ErrorSearch} {upper : α → Prop}
    {missed : α → (TypeKey → Prop) → Prop} (hmono : ∀ a, Monotone (missed a)) (items : List α)
    (hstep : ∀ a ∈ items, ∀ m, Advances s m → Invariant c h nss m →
      Answers c h nss (upper a) (missed a) m (step a m))
    (hinv : Invariant c h nss s) :
    Answers c h nss (∃ a ∈ items, upper a) (fun P => ∀ a ∈ items, missed a P) s (firstHit step items s) := by
  induction items generalizing s with
  | nil => exact Answers.unchanged hinv (by simp) (by simp)
  | cons a items ih =>
    have hfirst := hstep a List.mem_cons_self s (Advances.refl s) hinv
    have hrest := ih (fun b hb m hm => hstep b (List.mem_cons_of_mem a hb) m (hfirst.advances.trans hm))
      hfirst.invariant
    unfold firstHit
    split
    . next hyes =>
      exact ⟨fun _ => ⟨a, List.mem_cons_self, hfirst.upper_of_yes hyes⟩, by simp, by simp, hfirst.invariant,
        hfirst.advances⟩
    . next hno =>
      rw [Bool.not_eq_true] at hno
      refine ⟨?_, ?_, ?_, hrest.invariant, hfirst.advances.trans hrest.advances⟩
      . intro hyes
        obtain ⟨b, hb, hupper⟩ := hrest.upper_of_yes hyes
        exact ⟨b, List.mem_cons_of_mem a hb, hupper⟩
      . intro hlater b hb
        rw [List.mem_cons] at hb
        cases hb with
        | inl heq =>
          rw [heq]
          apply hmono a _ (hfirst.missed_of_no hno)
          intro k hk
          exact hk.extend hrest.advances
        | inr hb =>
          apply hmono b _ (hrest.missed_of_no hlater b hb)
          intro k hk
          exact hk.of_later hfirst.advances hrest.advances
      . intro hlater
        exact (hfirst.exhausted_of_no hno).trans hfirst.advances hrest.advances (hrest.exhausted_of_no hlater)

variable {fuel : Nat}

theorem visitAny_eq_firstHit (keys : List TypeKey) (s : ErrorSearch) :
    visitAny c h nss fuel keys s = firstHit (visit c h nss fuel) keys s := by
  induction keys generalizing s with
  | nil => rw [visitAny, firstHit]
  | cons key keys ih => rw [visitAny, firstHit, ← ih]

/--
Whether one parent makes the type `key` an error.
-/
def visitParent (c : Conventions) (h : Hierarchy) (nss : List Namespace) (fuel : Nat) (key : TypeKey)
    (parent : String) (s : ErrorSearch) : Bool × ErrorSearch :=
  if h.resolve key parent = [] then (c.isErrorRoot (parentHead parent), s)
  else firstHit (visit c h nss fuel) (h.resolve key parent) s

theorem visitParents_eq_firstHit (key : TypeKey) (parents : List String) (s : ErrorSearch) :
    visitParents c h nss fuel key parents s = firstHit (visitParent c h nss fuel key) parents s := by
  induction parents generalizing s with
  | nil => rw [visitParents, firstHit]
  | cons parent parents ih =>
    rw [visitParents, firstHit, ← ih]
    unfold visitParent
    simp only [← visitAny_eq_firstHit]
    cases h.resolve key parent <;> simp

/--
A search that may go `fuel` types deep answers for every type to which all open types lead.
-/
def VisitAnswers (c : Conventions) (h : Hierarchy) (nss : List Namespace) (fuel : Nat) : Prop :=
  ∀ key s, key ∈ typeKeys nss → Invariant c h nss s → (∀ k, s.Pending k → Relation.TransGen (h.Extends nss) k key) →
    (unvisited nss s).length < fuel →
    Answers c h nss (h.InheritsError c nss key) (fun P => P key) s (visit c h nss fuel key s)

/--
A parent makes the type `key` an error: outside of the tree, or by a local type that inherits from one.
-/
def ParentGives (c : Conventions) (h : Hierarchy) (nss : List Namespace) (key : TypeKey) (parent : String) : Prop :=
  h.ErrorParent c key parent ∨ ∃ p ∈ h.resolve key parent, h.InheritsError c nss p

/--
A parent does not make the type `key` an error, if `P` holds of the types that do not.
-/
def ParentMissed (c : Conventions) (h : Hierarchy) (key : TypeKey) (parent : String) (P : TypeKey → Prop) : Prop :=
  ¬ h.ErrorParent c key parent ∧ ∀ p ∈ h.resolve key parent, P p

theorem visitParent_answers (hdeclared : ∀ k parent, ∀ p ∈ h.resolve k parent, p ∈ typeKeys nss)
    (hvisit : VisitAnswers c h nss fuel) {parent : String} (hparent : parent ∈ parentsOf nss key)
    (hinv : Invariant c h nss s) (hpending : ∀ p, s.Pending p → Relation.ReflTransGen (h.Extends nss) p key)
    (hfuel : (unvisited nss s).length < fuel) :
    Answers c h nss (ParentGives c h nss key parent) (ParentMissed c h key parent) s
      (visitParent c h nss fuel key parent s) := by
  unfold visitParent
  split
  . next hnone =>
    apply Answers.unchanged hinv
    . intro hroot
      exact Or.inl ⟨hnone, hroot⟩
    . intro hroot
      refine ⟨fun herror => ?_, by simp [hnone]⟩
      rw [herror.2] at hroot
      simp at hroot
  . next hsome =>
    have hany : Answers c h nss (∃ k ∈ h.resolve key parent, h.InheritsError c nss k)
        (fun P => ∀ k ∈ h.resolve key parent, P k) s (firstHit (visit c h nss fuel) (h.resolve key parent) s) := by
      apply firstHit_answers
      . intro k P Q hPQ
        exact hPQ k
      . intro k hk m hm hinvm
        apply hvisit k m (hdeclared key parent k hk) hinvm
        . intro p hp
          exact Relation.TransGen.tail' (hpending p (hm.pending_before p hp)) ⟨parent, hparent, hk⟩
        . exact Nat.lt_of_le_of_lt (length_unvisited_le hm) hfuel
      . exact hinv
    exact ⟨fun hyes => Or.inr (hany.upper_of_yes hyes),
      fun hno => ⟨fun herror => hsome herror.1, hany.missed_of_no hno⟩, hany.exhausted_of_no, hany.invariant,
      hany.advances⟩

theorem visitParents_answers (hdeclared : ∀ k parent, ∀ p ∈ h.resolve k parent, p ∈ typeKeys nss)
    (hvisit : VisitAnswers c h nss fuel) (hinv : Invariant c h nss s)
    (hpending : ∀ p, s.Pending p → Relation.ReflTransGen (h.Extends nss) p key)
    (hfuel : (unvisited nss s).length < fuel) :
    Answers c h nss (∃ parent ∈ parentsOf nss key, ParentGives c h nss key parent)
      (fun P => ∀ parent ∈ parentsOf nss key, ParentMissed c h key parent P) s
      (visitParents c h nss fuel key (parentsOf nss key) s) := by
  rw [visitParents_eq_firstHit]
  apply firstHit_answers
  . intro parent P Q hPQ hmissed
    exact ⟨hmissed.1, fun p hp => hPQ p (hmissed.2 p hp)⟩
  . intro parent hparent m hm hinvm
    exact visitParent_answers hdeclared hvisit hparent hinvm (fun p hp => hpending p (hm.pending_before p hp))
      (Nat.lt_of_le_of_lt (length_unvisited_le hm) hfuel)
  . exact hinv

/--
The search has come to the type.
-/
def enter (s : ErrorSearch) (key : TypeKey) : ErrorSearch :=
  { s with visiting := key :: s.visiting }

/--
The search has an answer for the type.
-/
def settle (s : ErrorSearch) (key : TypeKey) (b : Bool) : ErrorSearch :=
  { s with known := (key, b) :: s.known }

theorem visit_of_open (hopen : s.answer? key = none) (hnew : key ∉ s.visiting) :
    visit c h nss (fuel + 1) key s
      =
    let r := visitParents c h nss fuel key (parentsOf nss key) (s.enter key)
    (r.1, r.2.settle key r.1) := by
  rw [visit, hopen]
  dsimp only
  rw [if_neg (by simpa using hnew)]
  rfl

theorem visit_of_pending (hpending : s.Pending key) : visit c h nss (fuel + 1) key s = (false, s) := by
  rw [visit, hpending.2]
  dsimp only
  rw [if_pos (by simpa using hpending.1)]

theorem answer?_settle (s : ErrorSearch) (key k : TypeKey) (b : Bool) :
    (s.settle key b).answer? k = if key = k then some b else s.answer? k := by
  apply answer?_cons

theorem length_unvisited_enter_lt (hkey : key ∈ typeKeys nss) (hnew : key ∉ s.visiting) :
    (unvisited nss (s.enter key)).length < (unvisited nss s).length := by
  have hfilter : unvisited nss (s.enter key) = (unvisited nss s).filter (fun k => !decide (k = key)) := by
    unfold unvisited enter
    rw [List.filter_filter]
    congr 1
    funext k
    simp
  rw [hfilter, List.length_filter_lt_length_iff_exists]
  refine ⟨key, ?_, by simp⟩
  simp [unvisited, hkey, hnew]

theorem Entered.self (hnew : key ∉ s.visiting) (hadv : Advances (s.enter key) m) (b : Bool) :
    Entered s (m.settle key b) key :=
  ⟨hadv.visiting_subset key List.mem_cons_self, hnew⟩

theorem Entered.of_enter (hk : Entered (s.enter key) m k) (b : Bool) : Entered s (m.settle key b) k :=
  ⟨hk.1, fun hmem => hk.2 (List.mem_cons_of_mem key hmem)⟩

theorem Advances.of_enter (hopen : s.answer? key = none) (hnew : key ∉ s.visiting)
    (hadv : Advances (s.enter key) m) (b : Bool) : Advances s (m.settle key b) where
  visiting_subset := by
    intro k hk
    exact hadv.visiting_subset k (List.mem_cons_of_mem key hk)
  pending_before := by
    rintro k ⟨hvisiting, hanswer⟩
    rw [answer?_settle] at hanswer
    split at hanswer
    . simp at hanswer
    . next hne =>
      obtain ⟨hmem, hbefore⟩ := hadv.pending_before k ⟨hvisiting, hanswer⟩
      exact ⟨(List.mem_cons.mp hmem).resolve_left (Ne.symm hne), hbefore⟩
  answer_kept := by
    intro k b' hk
    rw [answer?_settle]
    split
    . next heq =>
      rw [← heq, hopen] at hk
      simp at hk
    . exact hadv.answer_kept k b' hk
  answer_new := by
    intro k b' hk
    rw [answer?_settle] at hk
    split at hk
    . next heq => exact Or.inr (heq ▸ Entered.self hnew hadv b)
    . exact (hadv.answer_new k b' hk).imp_right (fun hentered => hentered.of_enter b)

theorem Dismissed.of_enter (hnew : key ∉ s.visiting) (hadv : Advances (s.enter key) m)
    (hk : Dismissed (s.enter key) m k) (b : Bool) : Dismissed s (m.settle key b) k := by
  rcases hk with hentered | ⟨hmem, hanswer⟩ | hcleared
  . exact Or.inl (hentered.of_enter b)
  . cases List.mem_cons.mp hmem with
    | inl heq => exact Or.inl (heq ▸ Entered.self hnew hadv b)
    | inr hmem => exact Or.inr (Or.inl ⟨hmem, hanswer⟩)
  . exact Or.inr (Or.inr hcleared)

theorem Exhausted.of_enter (hinv : Invariant c h nss s) (hopen : s.answer? key = none) (hnew : key ∉ s.visiting)
    (hadv : Advances (s.enter key) m) (hex : Exhausted c h nss (s.enter key) m)
    (hmissed : ∀ parent ∈ parentsOf nss key, ParentMissed c h key parent (Dismissed (s.enter key) m)) (b : Bool) :
    Exhausted c h nss s (m.settle key b) := by
  intro k hk
  by_cases heq : k = key
  . subst heq
    constructor
    . rintro (⟨t, ht, htype⟩ | ⟨parent, hparent, hroot⟩)
      . exact hinv.declared_known k t ht htype hopen
      . exact (hmissed parent hparent).1 hroot
    . rintro p ⟨parent, hparent, hp⟩
      exact ((hmissed parent hparent).2 p hp).of_enter hnew hadv b
  . obtain ⟨hown, hparents⟩ := hex k ⟨hk.1, fun hmem => hk.2 ((List.mem_cons.mp hmem).resolve_left heq)⟩
    exact ⟨hown, fun p hp => (hparents p hp).of_enter hnew hadv b⟩

theorem Invariant.settle (hinv : Invariant c h nss s) {b : Bool} (hyes : b = true → h.InheritsError c nss key)
    (hno : b = false → ¬ h.InheritsOffCycle c nss key) : Invariant c h nss (s.settle key b) := by
  constructor
  . intro k hk
    rw [answer?_settle] at hk
    split at hk
    . next heq => exact heq ▸ hyes (Option.some.inj hk)
    . exact hinv.marked k hk
  . intro k hk
    rw [answer?_settle] at hk
    split at hk
    . next heq => exact heq ▸ hno (Option.some.inj hk)
    . exact hinv.cleared k hk
  . intro k t ht htype
    rw [answer?_settle]
    split
    . simp
    . exact hinv.declared_known k t ht htype

theorem inheritsError_of_parentGives
    (hgives : ∃ parent ∈ parentsOf nss key, ParentGives c h nss key parent) : h.InheritsError c nss key := by
  obtain ⟨parent, hparent, hroot | ⟨p, hp, herror⟩⟩ := hgives
  . exact ⟨key, Relation.ReflTransGen.refl, Or.inr ⟨parent, hparent, hroot⟩⟩
  . exact Hierarchy.InheritsError.of_extends ⟨parent, hparent, hp⟩ herror

theorem visit_answers (hdeclared : ∀ k parent, ∀ p ∈ h.resolve k parent, p ∈ typeKeys nss) (fuel : Nat) :
    VisitAnswers c h nss fuel := by
  induction fuel with
  | zero =>
    intro key s _ _ _ hfuel
    omega
  | succ fuel ih =>
    intro key s hkey hinv hpending hfuel
    cases hanswer : s.answer? key with
    | some known =>
      rw [visit, hanswer]
      apply Answers.unchanged hinv
      . intro hyes
        exact hinv.marked key (hyes ▸ hanswer)
      . intro hno
        exact Or.inr (Or.inr (hno ▸ hanswer))
    | none =>
      by_cases hnew : key ∈ s.visiting
      . rw [visit_of_pending ⟨hnew, hanswer⟩]
        exact Answers.unchanged hinv (by simp) (fun _ => Or.inr (Or.inl ⟨hnew, hanswer⟩))
      . have hlead : ∀ p, s.Pending p → Relation.ReflTransGen (h.Extends nss) p key :=
          fun p hp => (hpending p hp).to_reflTransGen
        have hlead' : ∀ p, (s.enter key).Pending p → Relation.ReflTransGen (h.Extends nss) p key := by
          rintro p ⟨hmem, hopen⟩
          cases List.mem_cons.mp hmem with
          | inl heq => exact heq ▸ Relation.ReflTransGen.refl
          | inr hmem => exact hlead p ⟨hmem, hopen⟩
        have hfuel' := length_unvisited_enter_lt hkey hnew
        have hr := visitParents_answers hdeclared ih (s := s.enter key) (hinv.setVisiting _) hlead' (by omega)
        rw [visit_of_open hanswer hnew]
        generalize visitParents c h nss fuel key (parentsOf nss key) (s.enter key) = r at hr ⊢
        dsimp only
        have hex : r.1 = false → Exhausted c h nss s (r.2.settle key r.1) := by
          intro hno
          exact (hr.exhausted_of_no hno).of_enter hinv hanswer hnew hr.advances (hr.missed_of_no hno) r.1
        have hentered := Entered.self hnew hr.advances r.1
        refine ⟨?_, ?_, hex, ?_, hr.advances.of_enter hanswer hnew r.1⟩
        . intro hyes
          exact inheritsError_of_parentGives (hr.upper_of_yes hyes)
        . intro _
          exact Or.inl hentered
        . apply hr.invariant.settle
          . intro hyes
            exact inheritsError_of_parentGives (hr.upper_of_yes hyes)
          . intro hno
            exact not_inheritsOffCycle_of_exhausted hinv hlead (hex hno) hentered

theorem visit_known (hnew : key ∉ s.visiting) :
    (visit c h nss (fuel + 1) key s).2.answer? key = some (visit c h nss (fuel + 1) key s).1 := by
  cases hanswer : s.answer? key with
  | some known =>
    rw [visit, hanswer]
    exact hanswer
  | none =>
    rw [visit_of_open hanswer hnew]
    simp [answer?_settle]

theorem mem_declaredErrors {e : TypeKey × Bool} :
    e ∈ declaredErrors c nss ↔ ∃ t, (e.1, t) ∈ declarations nss ∧ c.isErrorType t = true ∧ e.2 = true := by
  simp only [declaredErrors, declarations, List.mem_flatMap, List.mem_filterMap, List.mem_map,
    Option.ite_none_right_eq_some, Option.some.injEq]
  constructor
  . rintro ⟨ns, hns, t, ht, htype, rfl⟩
    exact ⟨t, ⟨ns, hns, t, ht, rfl⟩, htype, rfl⟩
  . rintro ⟨t, ⟨ns, hns, u, hu, heq⟩, htype, hflag⟩
    obtain ⟨hk, rfl⟩ := Prod.mk.inj heq
    exact ⟨ns, hns, u, hu, htype, Prod.ext hk hflag.symm⟩

theorem of_answer?_declaredErrors {b : Bool} (hk : answer? ⟨declaredErrors c nss, []⟩ k = some b) :
    b = true ∧ ∃ t, (k, t) ∈ declarations nss ∧ c.isErrorType t = true := by
  rw [answer?, Option.map_eq_some_iff] at hk
  obtain ⟨e, he, rfl⟩ := hk
  have hkey : e.1 = k := by simpa using List.find?_some he
  obtain ⟨t, ht, htype, hflag⟩ := mem_declaredErrors.mp (List.mem_of_find?_eq_some he)
  exact ⟨hflag, t, hkey ▸ ht, htype⟩

theorem invariant_declaredErrors (c : Conventions) (h : Hierarchy) (nss : List Namespace) :
    Invariant c h nss ⟨declaredErrors c nss, []⟩ := by
  constructor
  . intro k hk
    exact ⟨k, Relation.ReflTransGen.refl, Or.inl (of_answer?_declaredErrors hk).2⟩
  . intro k hk
    simpa using (of_answer?_declaredErrors hk).1
  . intro k t ht htype
    rw [answer?, ne_eq, Option.map_eq_none_iff, List.find?_eq_none]
    intro hnone
    exact hnone (k, true) (mem_declaredErrors.mpr ⟨t, ht, htype, rfl⟩) (by simp)

/--
The answers after the keys were visited one after the other.
-/
def visitAll (c : Conventions) (h : Hierarchy) (nss : List Namespace) (fuel : Nat) (order : List TypeKey)
    (known : List (TypeKey × Bool)) : List (TypeKey × Bool) :=
  order.foldl (fun known key => (visit c h nss fuel key ⟨known, []⟩).2.known) known

section Orders

variable (hdeclared : ∀ k parent, ∀ p ∈ h.resolve k parent, p ∈ typeKeys nss) {known : List (TypeKey × Bool)}
  (hinv : Invariant c h nss ⟨known, []⟩)

include hdeclared hinv

theorem visit_answers_of_idle (hkey : key ∈ typeKeys nss) :
    Answers c h nss (h.InheritsError c nss key) (fun P => P key) ⟨known, []⟩
      (visit c h nss ((typeKeys nss).length + 1) key ⟨known, []⟩) := by
  apply visit_answers hdeclared _ key ⟨known, []⟩ hkey hinv
  . intro k hk
    exact absurd hk.1 List.not_mem_nil
  . exact Nat.lt_succ_of_le (List.length_filter_le _ _)

theorem visitAll_answers (order : List TypeKey) (horder : ∀ k ∈ order, k ∈ typeKeys nss) :
    Invariant c h nss ⟨visitAll c h nss ((typeKeys nss).length + 1) order known, []⟩ ∧
    (∀ k b, answer? ⟨known, []⟩ k = some b →
      answer? ⟨visitAll c h nss ((typeKeys nss).length + 1) order known, []⟩ k = some b) ∧
    (∀ k ∈ order, answer? ⟨visitAll c h nss ((typeKeys nss).length + 1) order known, []⟩ k ≠ none) := by
  induction order generalizing known with
  | nil => exact ⟨hinv, fun _ _ hk => hk, by simp⟩
  | cons key order ih =>
    have hstep := visit_answers_of_idle hdeclared hinv (horder key List.mem_cons_self)
    obtain ⟨hlater, hkept, hall⟩ := ih (hstep.invariant.setVisiting [])
      (fun k hk => horder k (List.mem_cons_of_mem key hk))
    refine ⟨hlater, fun k b hk => hkept k b (hstep.advances.answer_kept k b hk), ?_⟩
    intro k hk
    rw [List.mem_cons] at hk
    cases hk with
    | inl heq =>
      rw [heq, visitAll, List.foldl_cons]
      have hknown := hkept key _ (visit_known List.not_mem_nil)
      exact Option.ne_none_iff_exists'.mpr ⟨_, hknown⟩
    | inr hk => exact hall k hk

theorem visitAll_first (hcleared : ∀ k, answer? ⟨known, []⟩ k ≠ some false) (order : List TypeKey)
    (horder : ∀ k ∈ key :: order, k ∈ typeKeys nss) (herror : h.InheritsError c nss key) :
    answer? ⟨visitAll c h nss ((typeKeys nss).length + 1) (key :: order) known, []⟩ key = some true := by
  have hstep := visit_answers_of_idle hdeclared hinv (horder key List.mem_cons_self)
  have hopen : ∀ k, ¬ Pending ⟨known, []⟩ k := fun k hk => List.not_mem_nil hk.1
  -- nothing was open or cleared before, so a search without success would have come to the error
  have hyes : (visit c h nss ((typeKeys nss).length + 1) key ⟨known, []⟩).1 = true := by
    rw [← Bool.not_eq_false]
    intro hno
    have hentered := (hstep.missed_of_no hno).resolve_right (not_or.mpr ⟨hopen key, hcleared key⟩)
    exact not_inheritsError_of_exhausted hopen hcleared (hstep.exhausted_of_no hno) hentered herror
  obtain ⟨-, hkept, -⟩ := visitAll_answers hdeclared (hstep.invariant.setVisiting []) order
    (fun k hk => horder k (List.mem_cons_of_mem key hk))
  apply hkept
  rw [← hyes]
  exact visit_known List.not_mem_nil

end Orders

end ErrorSearch

/--
The same types with these error flags.
-/
def setErrorFlags (flag : TypeKey → Bool) (nss : List Namespace) : List Namespace :=
  nss.map fun ns => { ns with types := ns.types.map fun t => { t with isError := flag ⟨ns.name, t.name⟩ } }

theorem setErrorFlags_congr {f g : TypeKey → Bool} {nss : List Namespace} (h : ∀ k ∈ typeKeys nss, f k = g k) :
    setErrorFlags f nss = setErrorFlags g nss := by
  unfold setErrorFlags
  apply List.map_congr_left
  intro ns hns
  congr 1
  apply List.map_congr_left
  intro t ht
  rw [h _ (mem_typeKeys.mpr ⟨t, mem_declarations hns ht⟩)]

/--
The flag that a type gets if the keys are visited in the given order.
-/
def errorFlag (c : Conventions) (nss : List Namespace) (imports : List (String × List Import)) (order : List TypeKey)
    (k : TypeKey) : Bool :=
  ErrorSearch.answer? ⟨ErrorSearch.visitAll c (Hierarchy.ofNamespaces nss imports) nss ((typeKeys nss).length + 1) order
    (declaredErrors c nss), []⟩ k == some true

theorem markErrorsInOrder_eq_setErrorFlags (c : Conventions) (nss : List Namespace)
    (imports : List (String × List Import)) (order : List TypeKey) :
    markErrorsInOrder c nss imports order = setErrorFlags (errorFlag c nss imports order) nss := by
  unfold markErrorsInOrder setErrorFlags errorFlag ErrorSearch.answer? ErrorSearch.visitAll
  dsimp only
  congr 1
  funext ns
  congr 2
  funext t
  congr 1
  generalize List.find? _ _ = e
  cases e with
  | none => rfl
  | some e => cases h : e.2 <;> simp [h]

section Flags

variable {c : Conventions} {nss : List Namespace} {imports : List (String × List Import)} {order : List TypeKey}
  {k : TypeKey}

theorem inheritsError_of_errorFlag (horder : order.Perm (typeKeys nss))
    (hflag : errorFlag c nss imports order k = true) : (Hierarchy.ofNamespaces nss imports).InheritsError c nss k := by
  obtain ⟨hinv, -, -⟩ := ErrorSearch.visitAll_answers (fun _ _ _ => Hierarchy.mem_typeKeys_of_mem_resolve)
    (ErrorSearch.invariant_declaredErrors c (Hierarchy.ofNamespaces nss imports) nss) order
    (fun k hk => horder.mem_iff.mp hk)
  exact hinv.marked k (by simpa [errorFlag] using hflag)

theorem errorFlag_of_inheritsOffCycle (horder : order.Perm (typeKeys nss)) (hk : k ∈ typeKeys nss)
    (hoff : (Hierarchy.ofNamespaces nss imports).InheritsOffCycle c nss k) :
    errorFlag c nss imports order k = true := by
  obtain ⟨hinv, -, hall⟩ := ErrorSearch.visitAll_answers (fun _ _ _ => Hierarchy.mem_typeKeys_of_mem_resolve)
    (ErrorSearch.invariant_declaredErrors c (Hierarchy.ofNamespaces nss imports) nss) order
    (fun k hk => horder.mem_iff.mp hk)
  obtain ⟨b, hb⟩ := Option.ne_none_iff_exists'.mp (hall k (horder.mem_iff.mpr hk))
  cases b with
  | true => simpa [errorFlag] using hb
  | false => exact absurd hoff (hinv.cleared k hb)

theorem errorFlag_first (horder : (k :: order).Perm (typeKeys nss)) :
    errorFlag c nss imports (k :: order) k = true ↔ (Hierarchy.ofNamespaces nss imports).InheritsError c nss k := by
  constructor
  . apply inheritsError_of_errorFlag horder
  . intro herror
    have hcleared : ∀ k, ErrorSearch.answer? ⟨declaredErrors c nss, []⟩ k ≠ some false := by
      intro k hk
      simpa using (ErrorSearch.of_answer?_declaredErrors hk).1
    have hanswer := ErrorSearch.visitAll_first (fun _ _ _ => Hierarchy.mem_typeKeys_of_mem_resolve)
      (ErrorSearch.invariant_declaredErrors c (Hierarchy.ofNamespaces nss imports) nss) hcleared order
      (fun k hk => horder.mem_iff.mp hk) herror
    simpa [errorFlag] using hanswer

end Flags

end ApiSurface
