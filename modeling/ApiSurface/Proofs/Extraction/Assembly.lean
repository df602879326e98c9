import Mathlib.Algebra.BigOperators.Group.List.Basic
import Mathlib.Algebra.GroupWithZero.Nat
import Mathlib.Data.List.Induction
import ApiSurface.Extraction.Assembly
import ApiSurface.Proofs.Extraction.Schedule

/-!
This module contains the theory of assembly. After every record the tables hold exactly what the records so far add up
to, key by key, so the result is the one that the ledger reads off the whole list of records at once.
-/

namespace ApiSurface

namespace Keyed

theorem map_fst_modify [BEq κ] {k : κ} {f : β → β} {entries : List (κ × β)} :
    (modify k f entries).map (·.1) = entries.map (·.1) := by
  unfold modify
  rw [List.map_map]
  apply List.map_congr_left
  intro e _
  simp only [Function.comp_apply]
  split <;> rfl

variable [BEq κ] [LawfulBEq κ] {new : β} {k k' : κ} {f : β → β} {entries : List (κ × β)}

theorem map_fst_alter :
    (alter new k f entries).map (·.1)
      =
    if k ∈ entries.map (·.1) then entries.map (·.1) else entries.map (·.1) ++ [k] := by
  induction entries with
  | nil => rfl
  | cons e entries ih =>
    rw [alter]
    split
    . next heq => simp [beq_iff_eq.mp heq]
    . next hne =>
      have hne : k ≠ e.1 := by simpa using Ne.symm (mt beq_iff_eq.mpr hne)
      simp only [List.map_cons, ih, List.mem_cons, hne, false_or]
      split <;> rfl

theorem value_alter_self : value new k (alter new k f entries) = f (value new k entries) := by
  induction entries with
  | nil => simp [alter, value]
  | cons e entries ih =>
    by_cases heq : e.1 = k
    . simp [alter, value, heq]
    . simp [alter, value, heq, ih]

theorem value_alter_of_ne (hne : k' ≠ k) : value new k' (alter new k f entries) = value new k' entries := by
  induction entries with
  | nil => simp [alter, value, hne.symm]
  | cons e entries ih =>
    by_cases heq : e.1 = k
    . simp [alter, value, heq, hne.symm]
    . simp [alter, value, heq, ih]

theorem value_filter_of_ne (hne : k' ≠ k) :
    value new k' (entries.filter (fun e => e.1 != k)) = value new k' entries := by
  induction entries with
  | nil => rfl
  | cons e entries ih =>
    by_cases heq : e.1 = k
    . simp [value, heq, hne.symm, ih]
    . simp [value, heq, ih]

theorem value_of_not_mem (h : k ∉ entries.map (·.1)) : value new k entries = new := by
  induction entries with
  | nil => rfl
  | cons e entries ih =>
    rw [List.map_cons, List.mem_cons, not_or] at h
    simp [value, Ne.symm h.1, ih h.2]

theorem value_of_mem {e : κ × β} (hnodup : (entries.map (·.1)).Nodup) (h : e ∈ entries) :
    value new e.1 entries = e.2 := by
  induction entries with
  | nil => simp at h
  | cons first entries ih =>
    rw [List.map_cons, List.nodup_cons] at hnodup
    cases List.mem_cons.mp h with
    | inl heq => simp [value, heq]
    | inr hmem =>
      have hne : first.1 ≠ e.1 := by
        intro heq
        exact hnodup.1 (heq ▸ List.mem_map_of_mem hmem)
      simp [value, hne, ih hnodup.2 hmem]

end Keyed

namespace Ledger

theorem eq_nil_of_earliest? {items : List (Origin × α)} (h : earliest? items = none) : items = [] := by
  rw [← Option.not_isSome_iff_eq_none, isSome_earliest?, not_not] at h
  exact h

theorem earliest?_append_of_some {xs : List (Origin × α)} {x y : Origin × α} (h : earliest? xs = some y) :
    earliest? (xs ++ [x]) = some (if y.1.le x.1 then y else x) := by
  have hsorts := sortsBy_origin (α := α)
  induction xs generalizing y with
  | nil => simp [earliest?] at h
  | cons z rest ih =>
    rw [List.cons_append, earliest?]
    rw [earliest?] at h
    cases hrest : earliest? rest with
    | none =>
      rw [hrest] at h
      cases h
      rw [eq_nil_of_earliest? hrest]
      simp only [List.nil_append, earliest?]
      split <;> rfl
    | some w =>
      rw [ih hrest]
      rw [hrest] at h
      dsimp only at h ⊢
      split at h
      . next hzw =>
        cases h
        by_cases hwx : w.1.le x.1 = true
        . have hzx := hsorts.le_trans z w x hzw hwx
          simp [hwx, hzw, hzx]
        . simp only [hwx, Bool.false_eq_true, ↓reduceIte]
          split <;> rfl
      . next hzw =>
        obtain rfl := Option.some.inj h
        by_cases hwx : w.1.le x.1 = true
        . simp [hwx, hzw]
        . -- the new item is below the least one of the rest, and that one is below `z`
          have hxw : x.1.le w.1 = true := by simpa [hwx] using hsorts.le_total w x
          have hzx : ¬z.1.le x.1 = true := by
            intro hzx
            exact hzw (hsorts.le_trans z x w hzx hxw)
          simp [hwx, hzx]

theorem declarations_eq_nil {records : List Record} {key : TypeKey} (h : key ∉ declaredKeys records) :
    records.filterMap (declarationOf? key) = [] := by
  by_contra hne
  rw [← ne_eq, ← isSome_earliest?, Option.isSome_iff_exists] at hne
  obtain ⟨d, hd⟩ := hne
  exact h (declares_of_winner? hd).1

/--
The key that a record is about.
-/
def recordKey? : Record → Option TypeKey
  | .declare ns t _ => some ⟨ns, t.name⟩
  | .member ns t _ _ => some ⟨ns, t⟩
  | .value ns t _ _ => some ⟨ns, t⟩
  | .function _ _ _ => none
  | .imports _ _ => none

/--
The namespace that gets a function by a record.
-/
def functionName? : Record → Option String
  | .function ns _ _ => some ns
  | _ => none

/--
The namespace that gets imports by a record.
-/
def importsName? : Record → Option String
  | .imports ns _ => some ns
  | _ => none

/--
The parts that a record adds to a key.
-/
def partsIn (key : TypeKey) (r : Record) : Parts where
  members := membersOf key r
  values := valuesOf key r

/--
The parts that the records add to a key.
-/
def partsOf (records : List Record) (key : TypeKey) : Parts where
  members := records.flatMap (membersOf key)
  values := records.flatMap (valuesOf key)

/--
The interfaces that the records declare for a key, each once, in the order in which they came in.
-/
def declaredInterfaces (records : List Record) (key : TypeKey) : List String :=
  ((records.filterMap (declarationOf? key)).flatMap (fun d => d.2.interfaces)).eraseDups

section Append

variable {records : List Record} {r : Record} {key : TypeKey}

theorem partsOf_append : partsOf (records ++ [r]) key = (partsOf records key).append (partsIn key r) := by
  simp [partsOf, partsIn, Parts.append]

theorem declaredKeys_append_of_none (h : declaredKey? r = none) :
    declaredKeys (records ++ [r]) = declaredKeys records := by
  simp [declaredKeys, h]

theorem declaredKeys_append_of_mem (h : declaredKey? r = some key) (hmem : key ∈ declaredKeys records) :
    declaredKeys (records ++ [r]) = declaredKeys records := by
  unfold declaredKeys at hmem ⊢
  rw [List.mem_eraseDups] at hmem
  rw [List.filterMap_append, List.filterMap_cons_some h, List.filterMap_nil, Distinct.eraseDups_append_of_mem hmem]

theorem declaredKeys_append_of_not_mem (h : declaredKey? r = some key) (hmem : key ∉ declaredKeys records) :
    declaredKeys (records ++ [r]) = declaredKeys records ++ [key] := by
  unfold declaredKeys at hmem ⊢
  rw [List.mem_eraseDups] at hmem
  rw [List.filterMap_append, List.filterMap_cons_some h, List.filterMap_nil, Distinct.eraseDups_append_of_not_mem hmem]

theorem recordKey?_ne_of_ne {k : TypeKey} (h : recordKey? r = some key) (hne : k ≠ key) : recordKey? r ≠ some k := by
  rw [h, ne_eq, Option.some.injEq]
  exact hne.symm

theorem membersOf_eq_of_other (h : recordKey? r ≠ some key) : membersOf key r = [] := by
  cases r <;> grind [membersOf, recordKey?]

theorem valuesOf_eq_of_other (h : recordKey? r ≠ some key) : valuesOf key r = [] := by
  cases r <;> grind [valuesOf, recordKey?]

theorem partsIn_eq_of_other (h : recordKey? r ≠ some key) : partsIn key r = {} := by
  unfold partsIn
  rw [membersOf_eq_of_other h, valuesOf_eq_of_other h]

theorem declarationOf?_eq_of_other (h : recordKey? r ≠ some key) : declarationOf? key r = none := by
  cases r <;> grind [declarationOf?, recordKey?]

theorem partsOf_append_of_other (h : recordKey? r ≠ some key) : partsOf (records ++ [r]) key = partsOf records key := by
  rw [partsOf_append, partsIn_eq_of_other h]
  simp [Parts.append]

end Append

end Ledger

namespace Draft

theorem addInterfaces_eq (xs more : List String) : addInterfaces xs.eraseDups more = (xs ++ more).eraseDups := by
  unfold addInterfaces
  induction more generalizing xs with
  | nil => simp
  | cons name more ih =>
    rw [List.foldl_cons, List.append_cons xs name more]
    by_cases hmem : name ∈ xs
    . rw [if_pos (by simpa [List.mem_eraseDups] using hmem), ← Distinct.eraseDups_append_of_mem hmem, ih]
    . rw [if_neg (by simpa [List.mem_eraseDups] using hmem), ← Distinct.eraseDups_append_of_not_mem hmem, ih]

/--
The draft holds what the records add up to for the key: the declaration that counts, all interfaces and all parts.
-/
structure Sums (d : Draft) (records : List Record) (key : TypeKey) : Prop where
  winner : Ledger.winner? records key = some (d.origin, d.type)
  interfaces : d.interfaces = Ledger.declaredInterfaces records key
  parts : d.parts = Ledger.partsOf records key

variable {d : Draft} {records : List Record} {key : TypeKey} {r : Record}

theorem Sums.append_parts (h : d.Sums records key) (hr : Ledger.declarationOf? key r = none) :
    { d with parts := d.parts.append (Ledger.partsIn key r) }.Sums (records ++ [r]) key where
  winner := by
    rw [← h.winner]
    simp [Ledger.winner?, hr]
  interfaces := by
    rw [h.interfaces]
    simp [Ledger.declaredInterfaces, hr]
  parts := by rw [h.parts, Ledger.partsOf_append]

theorem Sums.of_other (h : d.Sums records key) (hr : Ledger.recordKey? r ≠ some key) : d.Sums (records ++ [r]) key := by
  have hparts := h.append_parts (Ledger.declarationOf?_eq_of_other hr)
  rw [Ledger.partsIn_eq_of_other hr] at hparts
  simpa [Parts.append] using hparts

theorem sums_start {ns : String} {t : TypeEntry} {origin : Origin} (h : ⟨ns, t.name⟩ ∉ Ledger.declaredKeys records) :
    (start t origin (Ledger.partsOf records ⟨ns, t.name⟩)).Sums (records ++ [.declare ns t origin]) ⟨ns, t.name⟩ where
  winner := by
    simp [Ledger.winner?, Ledger.declarations_eq_nil h, Ledger.declarationOf?, Ledger.earliest?, start]
  interfaces := by
    have hinterfaces := addInterfaces_eq [] t.interfaces
    simpa [Ledger.declaredInterfaces, Ledger.declarations_eq_nil h, Ledger.declarationOf?, start] using hinterfaces
  parts := by
    rw [Ledger.partsOf_append]
    simp [start, Ledger.partsIn, Ledger.membersOf, Ledger.valuesOf, Parts.ofDeclaration]

theorem Sums.redeclare {ns : String} {t : TypeEntry} {origin : Origin} (h : d.Sums records ⟨ns, t.name⟩) :
    (d.redeclare t origin).Sums (records ++ [.declare ns t origin]) ⟨ns, t.name⟩ where
  winner := by
    have hlater := Ledger.earliest?_append_of_some h.winner (x := (origin, t))
    simp only [Ledger.winner?, List.filterMap_append, Ledger.declarationOf?, List.filterMap_cons, beq_self_eq_true,
      ↓reduceIte, List.filterMap_nil]
    rw [hlater]
    unfold Draft.redeclare
    split <;> rfl
  interfaces := by
    have hinterfaces := addInterfaces_eq ((records.filterMap (Ledger.declarationOf? ⟨ns, t.name⟩)).flatMap
      (fun d => d.2.interfaces)) t.interfaces
    simpa [Ledger.declaredInterfaces, Ledger.declarationOf?, Draft.redeclare, h.interfaces] using hinterfaces
  parts := by
    rw [Ledger.partsOf_append, ← h.parts]
    simp [Draft.redeclare, Ledger.partsIn, Ledger.membersOf, Ledger.valuesOf, Parts.ofDeclaration]

end Draft

namespace Assembly

/--
The table has, under each key, what the records hold for it, in their order.
-/
structure Gathers [BEq κ] (entries : List (κ × List β)) (key? : Record → Option κ) (part : κ → Record → List β)
    (records : List Record) : Prop where
  keys : entries.map (·.1) = (records.filterMap key?).eraseDups
  value : ∀ k, Keyed.value [] k entries = records.flatMap (part k)

namespace Gathers

variable [BEq κ] {entries : List (κ × List β)} {key? : Record → Option κ} {part : κ → Record → List β}
  {records : List Record} {r : Record}

theorem of_other (h : Gathers entries key? part records) (hkey : key? r = none) (hpart : ∀ k, part k r = []) :
    Gathers entries key? part (records ++ [r]) where
  keys := by simp [h.keys, hkey]
  value := by simp [h.value, hpart]

theorem alter [LawfulBEq κ] {k : κ} {items : List β} (h : Gathers entries key? part records) (hkey : key? r = some k)
    (hpart : part k r = items) (hother : ∀ k', k' ≠ k → part k' r = []) :
    Gathers (Keyed.alter [] k (fun found => found ++ items) entries) key? part (records ++ [r]) where
  keys := by
    rw [Keyed.map_fst_alter, h.keys, List.filterMap_append, List.filterMap_cons_some hkey, List.filterMap_nil]
    split
    . next hmem => rw [Distinct.eraseDups_append_of_mem (List.mem_eraseDups.mp hmem)]
    . next hmem => rw [Distinct.eraseDups_append_of_not_mem (mt List.mem_eraseDups.mpr hmem)]
  value := by
    intro k'
    by_cases heq : k' = k
    . rw [heq, Keyed.value_alter_self, h.value]
      simp [hpart]
    . rw [Keyed.value_alter_of_ne heq, h.value]
      simp [hother k' heq]

end Gathers

end Assembly

namespace Drafts

/--
The types and the parts that wait are those of the records. What waits belongs to keys without a declaration.
-/
structure Holds (ds : Drafts) (records : List Record) : Prop where
  declared_keys : ds.declared.map (·.1) = Ledger.declaredKeys records
  declared : ∀ e ∈ ds.declared, e.2.Sums records e.1
  waiting_nodup : (ds.waiting.map (·.1)).Nodup
  waiting_undeclared : ∀ k ∈ ds.waiting.map (·.1), k ∉ Ledger.declaredKeys records
  waiting : ∀ k, k ∉ Ledger.declaredKeys records → Keyed.value {} k ds.waiting = Ledger.partsOf records k

namespace Holds

variable {ds : Drafts} {records : List Record} {r : Record} {key : TypeKey}

theorem declares_iff (h : ds.Holds records) : ds.declares key = true ↔ key ∈ Ledger.declaredKeys records := by
  rw [← h.declared_keys]
  simp only [declares, List.any_eq_true, beq_iff_eq, List.mem_map]

theorem ne_of_undeclared {e : TypeKey × Draft} (h : ds.Holds records) (hkey : key ∉ Ledger.declaredKeys records)
    (he : e ∈ ds.declared) : e.1 ≠ key := by
  intro heq
  rw [← h.declared_keys, ← heq] at hkey
  exact hkey (List.mem_map_of_mem he)

theorem of_other (h : ds.Holds records) (hr : Ledger.recordKey? r = none) : ds.Holds (records ++ [r]) := by
  have hkey : Ledger.declaredKey? r = none := by cases r <;> simp_all [Ledger.recordKey?, Ledger.declaredKey?]
  have hother : ∀ k, Ledger.recordKey? r ≠ some k := by simp [hr]
  have hdeclared : Ledger.declaredKeys (records ++ [r]) = Ledger.declaredKeys records :=
    Ledger.declaredKeys_append_of_none hkey
  constructor
  . rw [hdeclared]
    exact h.declared_keys
  . intro e he
    exact (h.declared e he).of_other (hother e.1)
  . exact h.waiting_nodup
  . rw [hdeclared]
    exact h.waiting_undeclared
  . intro k hk
    rw [hdeclared] at hk
    rw [h.waiting k hk, Ledger.partsOf_append_of_other (hother k)]

theorem modify {f : Draft → Draft} (h : ds.Holds records) (hkey : Ledger.recordKey? r = some key)
    (hdeclared : Ledger.declaredKeys (records ++ [r]) = Ledger.declaredKeys records)
    (hmem : key ∈ Ledger.declaredKeys records)
    (hsums : ∀ d : Draft, d.Sums records key → (f d).Sums (records ++ [r]) key) :
    Holds { ds with declared := Keyed.modify key f ds.declared } (records ++ [r]) := by
  constructor
  . rw [Keyed.map_fst_modify, hdeclared]
    exact h.declared_keys
  . intro e' he'
    obtain ⟨e, he, rfl⟩ := List.mem_map.mp he'
    have hsum := h.declared e he
    split
    . next heq =>
      rw [beq_iff_eq] at heq
      rw [heq] at hsum ⊢
      exact hsums e.2 hsum
    . next hne =>
      rw [beq_iff_eq] at hne
      exact hsum.of_other (Ledger.recordKey?_ne_of_ne hkey hne)
  . exact h.waiting_nodup
  . rw [hdeclared]
    exact h.waiting_undeclared
  . intro k hk
    rw [hdeclared] at hk
    have hne : k ≠ key := by
      intro heq
      exact hk (heq ▸ hmem)
    rw [h.waiting k hk, Ledger.partsOf_append_of_other (Ledger.recordKey?_ne_of_ne hkey hne)]

theorem alter_waiting (h : ds.Holds records) (hkey : Ledger.recordKey? r = some key)
    (hundeclared : Ledger.declaredKey? r = none) (hmem : key ∉ Ledger.declaredKeys records) :
    Holds { ds with waiting := Keyed.alter {} key (fun p => p.append (Ledger.partsIn key r)) ds.waiting }
      (records ++ [r]) := by
  have hdeclared : Ledger.declaredKeys (records ++ [r]) = Ledger.declaredKeys records :=
    Ledger.declaredKeys_append_of_none hundeclared
  constructor
  . rw [hdeclared]
    exact h.declared_keys
  . intro e he
    exact (h.declared e he).of_other (Ledger.recordKey?_ne_of_ne hkey (h.ne_of_undeclared hmem he))
  . rw [Keyed.map_fst_alter]
    split
    . exact h.waiting_nodup
    . next hnew => exact h.waiting_nodup.append (List.nodup_singleton key) (by simpa using hnew)
  . rw [Keyed.map_fst_alter, hdeclared]
    split
    . exact h.waiting_undeclared
    . intro k hk
      rw [List.mem_append, List.mem_singleton] at hk
      cases hk with
      | inl hk => exact h.waiting_undeclared k hk
      | inr heq => exact heq ▸ hmem
  . intro k hk
    rw [hdeclared] at hk
    by_cases heq : k = key
    . rw [heq, Keyed.value_alter_self, h.waiting key hmem, Ledger.partsOf_append]
    . rw [Keyed.value_alter_of_ne heq, h.waiting k hk,
        Ledger.partsOf_append_of_other (Ledger.recordKey?_ne_of_ne hkey heq)]

theorem addParts {parts : Parts} (h : ds.Holds records) (hkey : Ledger.recordKey? r = some key)
    (hundeclared : Ledger.declaredKey? r = none) (hdeclaration : Ledger.declarationOf? key r = none)
    (hparts : Ledger.partsIn key r = parts) : (ds.addParts key parts).Holds (records ++ [r]) := by
  unfold Drafts.addParts
  split
  . next hdeclared =>
    apply h.modify hkey (Ledger.declaredKeys_append_of_none hundeclared) (h.declares_iff.mp hdeclared)
    intro d hd
    rw [← hparts]
    exact hd.append_parts hdeclaration
  . next hdeclared =>
    rw [h.declares_iff] at hdeclared
    rw [← hparts]
    exact h.alter_waiting hkey hundeclared hdeclared

variable {ns : String} {t : TypeEntry} {origin : Origin}

theorem start (h : ds.Holds records) (hmem : ⟨ns, t.name⟩ ∉ Ledger.declaredKeys records) :
    Holds
      { declared := ds.declared ++ [(⟨ns, t.name⟩, .start t origin (Keyed.value {} ⟨ns, t.name⟩ ds.waiting))]
        waiting := ds.waiting.filter (fun e => e.1 != ⟨ns, t.name⟩) }
      (records ++ [.declare ns t origin]) := by
  have hdeclared := Ledger.declaredKeys_append_of_not_mem (r := .declare ns t origin) rfl hmem
  constructor
  . rw [List.map_append, h.declared_keys, hdeclared]
    rfl
  . intro e he
    rw [List.mem_append, List.mem_singleton] at he
    cases he with
    | inl he => exact (h.declared e he).of_other (Ledger.recordKey?_ne_of_ne rfl (h.ne_of_undeclared hmem he))
    | inr heq =>
      rw [heq, h.waiting _ hmem]
      exact Draft.sums_start hmem
  . exact (List.filter_sublist.map _).nodup h.waiting_nodup
  . intro k hk
    obtain ⟨e, he, rfl⟩ := List.mem_map.mp hk
    rw [List.mem_filter, bne_iff_ne] at he
    rw [hdeclared, List.mem_append, List.mem_singleton, not_or]
    exact ⟨h.waiting_undeclared e.1 (List.mem_map_of_mem he.1), he.2⟩
  . intro k hk
    rw [hdeclared, List.mem_append, List.mem_singleton, not_or] at hk
    rw [Keyed.value_filter_of_ne hk.2, h.waiting k hk.1,
      Ledger.partsOf_append_of_other (Ledger.recordKey?_ne_of_ne rfl hk.2)]

theorem declare (h : ds.Holds records) :
    (ds.declare ⟨ns, t.name⟩ t origin).Holds (records ++ [.declare ns t origin]) := by
  unfold Drafts.declare
  split
  . next hdeclared =>
    rw [h.declares_iff] at hdeclared
    apply h.modify rfl (Ledger.declaredKeys_append_of_mem rfl hdeclared) hdeclared
    intro d hd
    exact hd.redeclare
  . next hdeclared =>
    rw [h.declares_iff] at hdeclared
    exact h.start hdeclared

end Holds

end Drafts

namespace Assembly

/--
The tables hold what the records add up to.
-/
structure Holds (a : Assembly) (records : List Record) : Prop where
  drafts : a.drafts.Holds records
  functions : Gathers a.functions Ledger.functionName? Ledger.functionsOf records
  imports : Gathers a.imports Ledger.importsName? Ledger.importsOf records

theorem holds_empty : Holds {} [] where
  drafts := ⟨rfl, by simp, by simp, by simp, fun _ _ => rfl⟩
  functions := ⟨rfl, fun _ => rfl⟩
  imports := ⟨rfl, fun _ => rfl⟩

theorem Holds.add {a : Assembly} {records : List Record} (h : a.Holds records) (r : Record) :
    (a.add r).Holds (records ++ [r]) := by
  cases r with
  | declare ns t origin =>
    exact ⟨h.drafts.declare, h.functions.of_other rfl (fun _ => rfl), h.imports.of_other rfl (fun _ => rfl)⟩
  | member ns t m origin =>
    have hparts : Ledger.partsIn ⟨ns, t⟩ (.member ns t m origin) = { members := [(origin, m)] } := by
      simp [Ledger.partsIn, Ledger.membersOf, Ledger.valuesOf]
    exact ⟨h.drafts.addParts rfl rfl rfl hparts, h.functions.of_other rfl (fun _ => rfl),
      h.imports.of_other rfl (fun _ => rfl)⟩
  | value ns t v origin =>
    have hparts : Ledger.partsIn ⟨ns, t⟩ (.value ns t v origin) = { values := [(origin, v)] } := by
      simp [Ledger.partsIn, Ledger.membersOf, Ledger.valuesOf]
    exact ⟨h.drafts.addParts rfl rfl rfl hparts, h.functions.of_other rfl (fun _ => rfl),
      h.imports.of_other rfl (fun _ => rfl)⟩
  | function ns f origin =>
    refine ⟨h.drafts.of_other rfl, ?_, h.imports.of_other rfl (fun _ => rfl)⟩
    apply h.functions.alter rfl
    . simp [Ledger.functionsOf]
    . intro name hne
      simp [Ledger.functionsOf, hne.symm]
  | imports ns names =>
    refine ⟨h.drafts.of_other rfl, h.functions.of_other rfl (fun _ => rfl), ?_⟩
    apply h.imports.alter rfl
    . simp [Ledger.importsOf]
    . intro name hne
      simp [Ledger.importsOf, hne.symm]

theorem holds_ofRecords (records : List Record) : (ofRecords records).Holds records := by
  induction records using List.reverseRecOn with
  | nil => exact holds_empty
  | append_singleton records r ih =>
    unfold ofRecords at ih ⊢
    rw [List.foldl_append, List.foldl_cons, List.foldl_nil]
    exact ih.add r

end Assembly

namespace Ledger

/--
The members in a record, in its declaration or on their own.
-/
def recordedMembers : Record → List Member
  | .declare _ t _ => t.members
  | .member _ _ m _ => [m]
  | _ => []

/--
Whether the record is about one of the keys.
-/
def isAbout (keys : List TypeKey) (r : Record) : Bool :=
  (recordKey? r).any keys.contains

theorem length_membersOf (key : TypeKey) (r : Record) :
    (membersOf key r).length = if recordKey? r = some key then (recordedMembers r).length else 0 := by
  cases r <;> grind [membersOf, recordKey?, recordedMembers]

theorem sum_length_membersOf {keys : List TypeKey} (hkeys : keys.Nodup) (r : Record) :
    (keys.map (fun k => (membersOf k r).length)).sum = if isAbout keys r then (recordedMembers r).length else 0 := by
  induction keys with
  | nil =>
    cases hkey : recordKey? r <;> simp [isAbout, hkey]
  | cons k keys ih =>
    rw [List.nodup_cons] at hkeys
    rw [List.map_cons, List.sum_cons, ih hkeys.2, length_membersOf]
    cases hkey : recordKey? r with
    | none => simp [isAbout, hkey]
    | some key =>
      by_cases heq : key = k
      . simp [isAbout, hkey, heq, hkeys.1]
      . simp [isAbout, hkey, heq]

/--
Members are counted once, whether by the keys they are for or by the records they come in.
-/
theorem sum_length_flatMap_membersOf {keys : List TypeKey} (hkeys : keys.Nodup) (records : List Record) :
    (keys.map (fun k => (records.flatMap (membersOf k)).length)).sum
      =
    ((records.filter (isAbout keys)).flatMap recordedMembers).length := by
  induction records with
  | nil => simp
  | cons r records ih =>
    simp only [List.flatMap_cons, List.length_append, List.sum_map_add, ih, sum_length_membersOf hkeys,
      List.filter_cons]
    split <;> simp

theorem length_recordedMembers_split (keys : List TypeKey) (records : List Record) :
    ((records.filter (isAbout keys)).flatMap recordedMembers).length
      + ((records.filter (fun r => !isAbout keys r)).flatMap recordedMembers).length
      =
    (records.flatMap recordedMembers).length := by
  rw [← List.length_append, ← List.flatMap_append]
  exact ((List.filter_append_perm (isAbout keys) records).flatMap_right recordedMembers).length_eq

theorem orphanCount_eq_length (records : List Record) :
    orphanCount records
      =
    ((records.filter (fun r => !isAbout (declaredKeys records) r)).flatMap recordedMembers).length := by
  have hdeclared : ∀ r ∈ records, ∀ k, declaredKey? r = some k → k ∈ declaredKeys records := by
    intro r hr k hk
    rw [declaredKeys, List.mem_eraseDups, List.mem_filterMap]
    exact ⟨r, hr, hk⟩
  unfold orphanCount
  dsimp only
  generalize declaredKeys records = keys at hdeclared
  induction records with
  | nil => rfl
  | cons r records ih =>
    rw [List.forall_mem_cons] at hdeclared
    have hrest := ih hdeclared.2
    cases r with
    | declare ns t origin =>
      have hmem := hdeclared.1 _ rfl
      simpa [isAbout, recordKey?, hmem] using hrest
    | member ns t m origin =>
      by_cases hmem : ⟨ns, t⟩ ∈ keys
      . simpa [isAbout, recordKey?, hmem] using hrest
      . have hother : isAbout keys (.member ns t m origin) = false := by simpa [isAbout, recordKey?] using hmem
        rw [List.filter_cons_of_pos (by simpa using hmem), List.filter_cons_of_pos (by simp [hother]), List.length_cons,
          hrest, List.flatMap_cons, List.length_append, recordedMembers, List.length_singleton, Nat.add_comm]
    | value ns t v origin =>
      by_cases hmem : ⟨ns, t⟩ ∈ keys
      . simpa [isAbout, recordKey?, hmem] using hrest
      . simpa [isAbout, recordKey?, recordedMembers, hmem] using hrest
    | function ns f origin => simpa [isAbout, recordKey?, recordedMembers] using hrest
    | imports ns names => simpa [isAbout, recordKey?, recordedMembers] using hrest

theorem mem_namespaceNames {records : List Record} {name : String} :
    name ∈ namespaceNames records
      ↔
    (∃ key ∈ declaredKeys records, key.namespace = name) ∨ name ∈ records.filterMap functionName? := by
  simp only [namespaceNames, declaredKeys, List.mem_mergeSort, List.mem_eraseDups, List.mem_filterMap]
  constructor
  . rintro ⟨r, hr, hname⟩
    cases r with
    | declare ns t origin => exact .inl ⟨_, ⟨_, hr, rfl⟩, Option.some.inj hname⟩
    | function ns f origin => exact .inr ⟨_, hr, hname⟩
    | _ => simp at hname
  . rintro (⟨key, ⟨r, hr, hkey⟩, rfl⟩ | ⟨r, hr, hname⟩)
    . cases r with
      | declare ns t origin => exact ⟨_, hr, by rw [← Option.some.inj hkey]⟩
      | _ => simp [declaredKey?] at hkey
    . cases r with
      | function ns f origin => exact ⟨_, hr, hname⟩
      | _ => simp [functionName?] at hname

end Ledger

theorem Draft.Sums.typeOf?_eq {d : Draft} {records : List Record} {key : TypeKey} (h : d.Sums records key) :
    Ledger.typeOf? records key = some d.finish := by
  rw [Ledger.typeOf?_eq_winner?, h.winner, Option.map_some]
  unfold Draft.finish
  rw [h.interfaces, h.parts]
  rfl

namespace Drafts.Holds

variable {ds : Drafts} {records : List Record} (h : ds.Holds records)

include h

theorem types_eq (name : String) :
    (ds.declared.filter (fun e => e.1.namespace == name)).map (·.2.finish)
      =
    ((Ledger.declaredKeys records).filter (fun k => k.namespace == name)).filterMap (Ledger.typeOf? records) := by
  rw [← h.declared_keys, List.filter_map, List.filterMap_map, ← List.filterMap_eq_map]
  apply List.filterMap_congr
  intro e he
  exact (h.declared e (List.mem_of_mem_filter he)).typeOf?_eq.symm

theorem sum_waiting_eq :
    (ds.waiting.map (fun e => e.2.members.length)).sum
      =
    ((records.filter (Ledger.isAbout (ds.waiting.map (·.1)))).flatMap Ledger.recordedMembers).length := by
  rw [← Ledger.sum_length_flatMap_membersOf h.waiting_nodup, List.map_map]
  congr 1
  apply List.map_congr_left
  intro e he
  have hvalue := h.waiting e.1 (h.waiting_undeclared e.1 (List.mem_map_of_mem he))
  rw [Keyed.value_of_mem h.waiting_nodup he] at hvalue
  rw [hvalue]
  rfl

theorem recordedMembers_eq_nil {r : Record} (hr : r ∈ records)
    (hdeclared : Ledger.isAbout (Ledger.declaredKeys records) r = false)
    (hwaiting : Ledger.isAbout (ds.waiting.map (·.1)) r = false) : Ledger.recordedMembers r = [] := by
  cases hkey : Ledger.recordKey? r with
  | none => cases r <;> simp_all [Ledger.recordKey?, Ledger.recordedMembers]
  | some key =>
    rw [Ledger.isAbout, hkey, Option.any_some, ← Bool.not_eq_true, List.contains_iff_mem] at hdeclared hwaiting
    -- nothing waits under the key, so the records have no members for it
    have hparts := h.waiting key hdeclared
    rw [Keyed.value_of_not_mem hwaiting] at hparts
    have hnil := List.flatMap_eq_nil_iff.mp (congrArg Parts.members hparts).symm r hr
    have hlength := Ledger.length_membersOf key r
    rw [hnil, if_pos hkey] at hlength
    exact List.eq_nil_of_length_eq_zero hlength.symm

theorem orphans_eq : ds.waiting.foldl (fun n e => n + e.2.members.length) 0 = Ledger.orphanCount records := by
  have hsum : ds.waiting.foldl (fun n e => n + e.2.members.length) 0
      = (ds.waiting.map (fun e => e.2.members.length)).sum := by
    rw [List.sum_eq_foldl, List.foldl_map]
  have hfilter : records.filter (Ledger.isAbout (ds.waiting.map (·.1)))
      = (records.filter (fun r => !Ledger.isAbout (Ledger.declaredKeys records) r)).filter
          (Ledger.isAbout (ds.waiting.map (·.1))) := by
    rw [List.filter_filter]
    apply List.filter_congr
    intro r _
    cases hkey : Ledger.recordKey? r with
    | none => simp [Ledger.isAbout, hkey]
    | some key =>
      have hundeclared := h.waiting_undeclared key
      grind [Ledger.isAbout]
  rw [hsum, h.sum_waiting_eq, Ledger.orphanCount_eq_length, hfilter, flatMap_filter_of_nil]
  intro r hr hwaiting
  rw [List.mem_filter, Bool.not_eq_true'] at hr
  exact h.recordedMembers_eq_nil hr.1 hr.2 hwaiting

end Drafts.Holds

namespace Assembly

theorem Holds.namespaceNames_eq {a : Assembly} {records : List Record} (h : a.Holds records) :
    a.namespaceNames = Ledger.namespaceNames records := by
  apply sortsBy_name.mergeSort_eq_of_perm
  . rw [List.perm_ext_iff_of_nodup (Distinct.nodup_eraseDups _) (Distinct.nodup_eraseDups _)]
    intro name
    have hnames := @Ledger.mem_namespaceNames records name
    rw [Ledger.namespaceNames, List.mem_mergeSort] at hnames
    rw [hnames, List.mem_eraseDups, List.mem_append, h.functions.keys, List.mem_eraseDups, ← h.drafts.declared_keys]
    simp
  . intro a _ b _ heq
    exact heq

/--
Taking in records one by one gives what they add up to.
-/
theorem finish_ofRecords (records : List Record) : (ofRecords records).finish = Ledger.collect records := by
  have h := holds_ofRecords records
  unfold finish Ledger.collect
  rw [h.namespaceNames_eq, h.imports.keys, h.drafts.orphans_eq]
  simp only [h.drafts.types_eq, h.functions.value, h.imports.value]
  rfl

end Assembly

end ApiSurface
