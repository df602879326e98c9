import ApiSurface.Config
import ApiSurface.Proofs.Decimal.Unsigned

/-!
This module contains proofs about the time that an analyzer may run: what settings and the variable make of it
together, and when the variable has the effect that it is described to have.
-/

namespace ApiSurface

namespace Timeout

/--
A text asks for a number of seconds: without the blanks around it, it is that number, which is positive.
-/
def AsksFor (s : String) (n : Nat) : Prop :=
  0 < n ∧ Decimal.Denotes (Text.trim s).toList n

variable {s : String} {n m : Nat}

theorem AsksFor.unique (h : AsksFor s n) (h' : AsksFor s m) : n = m := by
  apply Decimal.Denotes.unique h.2 h'.2

theorem ofWish_of_pos (h : 0 < n) : ofWish n = min n longest := by
  unfold ofWish
  rw [if_neg (by omega)]

theorem ofWish_bounds (n : Nat) : 1 ≤ ofWish n ∧ ofWish n ≤ longest := by
  unfold ofWish default longest
  split
  . decide
  . omega

theorem ofWish_ofWish (n : Nat) : ofWish (ofWish n) = ofWish n := by
  have hbounds := ofWish_bounds n
  rw [ofWish_of_pos (by omega)]
  omega

theorem ofText_of_asksFor (h : AsksFor s n) (hlt : n < Nat.pow 2 64) : ofText s = min n longest := by
  have hread : Decimal.unsigned? (Text.trim s) = some n := Decimal.unsigned?_eq_some_iff.mpr ⟨h.2, hlt⟩
  unfold ofText
  rw [hread]
  apply ofWish_of_pos h.1

/--
A text that asks for nothing, or for a number that is too large to be read, gets the default.
-/
theorem ofText_of_unread (h : ∀ n, AsksFor s n → Nat.pow 2 64 ≤ n) : ofText s = default := by
  unfold ofText
  cases hread : Decimal.unsigned? (Text.trim s) with
  | none => rfl
  | some n =>
    have hn := Decimal.unsigned?_eq_some_iff.mp hread
    cases Nat.eq_zero_or_pos n with
    | inl hzero =>
      subst hzero
      rfl
    | inr hpos => exact absurd hn.2 (Nat.not_lt.mpr (h n ⟨hpos, hn.1⟩))

end Timeout

namespace Config

open Timeout

/--
The time that settings and the variable give. A variable that cannot be read replaces the settings by the default.
-/
inductive Effective (c : Config) : Option String → Nat → Prop where
  | unset : Effective c none c.processTimeout
  | asked {s : String} {n : Nat} (h : AsksFor s n) (hlt : n < Nat.pow 2 64) : Effective c (some s) (min n longest)
  | unread {s : String} (h : ∀ n, AsksFor s n → Nat.pow 2 64 ≤ n) : Effective c (some s) Timeout.default

/--
The time follows the variable: it is what the variable asks for, up to the longest time, and what the settings say
if the variable asks for nothing.
-/
structure FollowsVariable (c : Config) (value? : Option String) (seconds : Nat) : Prop where
  asked : ∀ s ∈ value?, ∀ n, AsksFor s n → seconds = min n longest
  unasked : (∀ s ∈ value?, ∀ n, ¬ AsksFor s n) → seconds = c.processTimeout

variable {c : Config} {value? : Option String} {s : String} {n m t t' : Nat}

theorem timeout_withVariables (c : Config) (valueOf? : String → Option String) :
    (c.withVariables valueOf?).timeout =
      match valueOf? timeoutVariable with
      | some s => ofText s
      | none => c.timeout := by
  unfold withVariables
  generalize (valueOf? workersVariable).bind (fun s => Decimal.unsigned? (Text.trim s)) = workers
  cases valueOf? timeoutVariable with
  | none =>
    cases workers with
    | none => rfl
    | some n => by_cases hpos : n > 0 <;> simp [hpos]
  | some s =>
    cases workers with
    | none => dsimp only
    | some n => by_cases hpos : n > 0 <;> simp [hpos]

theorem processTimeout_withVariables (c : Config) (valueOf? : String → Option String) :
    (c.withVariables valueOf?).processTimeout =
      match valueOf? timeoutVariable with
      | some s => ofText s
      | none => c.processTimeout := by
  unfold processTimeout
  rw [timeout_withVariables]
  cases valueOf? timeoutVariable with
  | none => rfl
  | some s =>
    -- the time of a text is within the bounds, so the second clamping leaves it as it is
    apply ofWish_ofWish

theorem effective_processTimeout (c : Config) (valueOf? : String → Option String) :
    Effective c (valueOf? timeoutVariable) (c.withVariables valueOf?).processTimeout := by
  rw [processTimeout_withVariables]
  cases valueOf? timeoutVariable with
  | none => apply Effective.unset
  | some s =>
    by_cases h : ∃ n, AsksFor s n ∧ n < Nat.pow 2 64
    . obtain ⟨n, hn, hlt⟩ := h
      dsimp only
      rw [ofText_of_asksFor hn hlt]
      apply Effective.asked hn hlt
    . have hunread : ∀ n, AsksFor s n → Nat.pow 2 64 ≤ n := by
        intro n hn
        apply Nat.not_lt.mp
        intro hlt
        exact h ⟨n, hn, hlt⟩
      dsimp only
      rw [ofText_of_unread hunread]
      apply Effective.unread hunread

theorem Effective.bounds (h : Effective c value? t) : 1 ≤ t ∧ t ≤ longest := by
  cases h with
  | unset => apply ofWish_bounds
  | asked h =>
    rw [← ofWish_of_pos h.1]
    apply ofWish_bounds
  | unread => decide

theorem Effective.eq_min (h : Effective c (some s) t) (hn : AsksFor s n) (hlt : n < Nat.pow 2 64) :
    t = min n longest := by
  cases h with
  | asked hm => rw [hm.unique hn]
  | unread hlarge => exact absurd hlt (Nat.not_lt.mpr (hlarge n hn))

theorem Effective.eq_default_of_large (h : Effective c (some s) t) (hn : AsksFor s n) (hlarge : Nat.pow 2 64 ≤ n) :
    t = Timeout.default := by
  cases h with
  | asked hm hlt =>
    rw [hm.unique hn] at hlt
    exact absurd hlt (Nat.not_lt.mpr hlarge)
  | unread => rfl

theorem Effective.eq_default_of_unasked (h : Effective c (some s) t) (hn : ∀ n, ¬ AsksFor s n) : t = Timeout.default := by
  cases h with
  | asked hm => exact absurd hm (hn _)
  | unread => rfl

/--
The time follows the variable unless the number in it is too large to be read, or it asks for nothing where the
settings ask for another time than the default.
-/
theorem Effective.follows_iff (h : Effective c value? t) :
    FollowsVariable c value? t ↔
      ∀ s ∈ value?,
        (∀ n, AsksFor s n → n < Nat.pow 2 64) ∧ ((∀ n, ¬ AsksFor s n) → c.processTimeout = Timeout.default) := by
  cases value? with
  | none =>
    cases h
    constructor
    . intro _ s hs
      contradiction
    . intro _
      constructor
      . intro s hs
        contradiction
      . intro _
        rfl
  | some s =>
    simp only [Option.mem_some, forall_eq']
    constructor
    . intro hfollows
      constructor
      . intro n hn
        apply Nat.not_le.mp
        intro hlarge
        have hmin := hfollows.asked s rfl n hn
        rw [h.eq_default_of_large hn hlarge, Nat.min_eq_right (Nat.le_trans (by decide) hlarge)] at hmin
        exact absurd hmin (by decide)
      . intro hnone
        rw [← h.eq_default_of_unasked hnone]
        apply (hfollows.unasked _).symm
        simpa using hnone
    . intro hread
      constructor
      . intro s' hs' n hn
        cases hs'
        apply h.eq_min hn (hread.1 n hn)
      . intro hnone
        have hnone' := hnone s rfl
        rw [h.eq_default_of_unasked hnone', hread.2 hnone']

/--
The time that an analyzer may run lies between a second and an hour, it grows with the number in the variable as
long as that can be read, and these are the only cases in which it does not follow the variable.
-/
theorem processTimeout_effective_and_follows_iff (c : Config) (valueOf? : String → Option String) :
    Effective c (valueOf? timeoutVariable) (c.withVariables valueOf?).processTimeout ∧
    1 ≤ (c.withVariables valueOf?).processTimeout ∧
    (c.withVariables valueOf?).processTimeout ≤ longest ∧
    (∀ s ∈ valueOf? timeoutVariable, ∀ n, AsksFor s n → n < Nat.pow 2 64 →
      ∀ other : String → Option String, ∀ s' ∈ other timeoutVariable, ∀ m, AsksFor s' m → n ≤ m → m < Nat.pow 2 64 →
        (c.withVariables valueOf?).processTimeout ≤ (c.withVariables other).processTimeout) ∧
    (FollowsVariable c (valueOf? timeoutVariable) (c.withVariables valueOf?).processTimeout ↔
      ∀ s ∈ valueOf? timeoutVariable,
        (∀ n, AsksFor s n → n < Nat.pow 2 64) ∧ ((∀ n, ¬ AsksFor s n) → c.processTimeout = Timeout.default)) := by
  have heffective := effective_processTimeout c valueOf?
  refine ⟨heffective, heffective.bounds.1, heffective.bounds.2, ?_, heffective.follows_iff⟩
  intro s hs n hn hlt other s' hs' m hm hle hlt'
  have hother := effective_processTimeout c other
  rw [Option.mem_def.mp hs] at heffective
  rw [Option.mem_def.mp hs'] at hother
  rw [heffective.eq_min hn hlt, hother.eq_min hm hlt']
  omega

/--
Settings that ask for a minute.
-/
def minute : Config :=
  { timeout := 60 }

/--
The time of `minute` under a value of the variable.
-/
def minuteUnder (value : String) : Nat :=
  (minute.withVariables fun _ => some value).processTimeout

theorem minuteUnder_padded : AsksFor " +120 " 120 ∧ FollowsVariable minute (some " +120 ") (minuteUnder " +120 ") := by
  have hasks : AsksFor " +120 " 120 := ⟨by decide, 0, ['+'], Or.inr rfl, by decide +kernel⟩
  have hfollows := (processTimeout_effective_and_follows_iff minute fun _ => some " +120 ").2.2.2.2
  refine ⟨hasks, hfollows.mpr ?_⟩
  simp only [Option.mem_some, forall_eq']
  constructor
  . intro n hn
    rw [hn.unique hasks]
    decide
  . intro hnone
    exact absurd hasks (hnone 120)

/--
A word in the variable undoes the settings, and a number beyond all that can be read gives the default.
-/
theorem minuteUnder_not_follows :
    ¬ FollowsVariable minute (some "soon") (minuteUnder "soon") ∧
    ¬ FollowsVariable minute (some "18446744073709551616") (minuteUnder "18446744073709551616") := by
  constructor
  . intro h
    have hnone : ∀ n, ¬ AsksFor "soon" n := by
      intro n hn
      have hdigits := (Decimal.denotes_iff.mp hn.2).2.1
      exact absurd (hdigits 's' (by decide +kernel)) (by decide)
    have htime := h.unasked (by simpa using hnone)
    exact absurd htime (by decide +kernel)
  . intro h
    have hasks : AsksFor "18446744073709551616" 18446744073709551616 :=
      ⟨by decide, 0, [], Or.inl rfl, by decide +kernel⟩
    have htime := h.asked _ rfl _ hasks
    exact absurd htime (by decide +kernel)

end Config

end ApiSurface
