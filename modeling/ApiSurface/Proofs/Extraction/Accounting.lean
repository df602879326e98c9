import ApiSurface.Proofs.Extraction.Assembly

/-!
This module contains the balance of an assembly: everything that was recorded is in the result, at its place and once,
or is counted among the orphans.
-/

namespace ApiSurface

namespace Ledger

/--
The list has the items in the order of their origins, those of one origin in the order in which they came in.
-/
def ListsByOrigin (items : List (Origin × α)) (list : List α) : Prop :=
  ∃ sorted : List (Origin × α), list = sorted.map (·.2) ∧ sorted.Pairwise (fun a b => a.1.le b.1 = true) ∧
    ∀ o, sorted.filter (fun x => x.1 == o) = items.filter (fun x => x.1 == o)

/--
The type is what the records make of the key. The declaration with the least origin counts, the first one of several;
all members and values are there, also those that came in before any declaration.
-/
structure MadeOf (records : List Record) (key : TypeKey) (t : TypeEntry) : Prop where
  declaration : ∃ before d origin after,
    records = before ++ .declare key.namespace d origin :: after ∧ d.name = key.name ∧
    (∀ e p, .declare key.namespace e p ∈ before → e.name = key.name → p.le origin = false) ∧
    (∀ e p, .declare key.namespace e p ∈ after → e.name = key.name → origin.le p = true) ∧
    t = { d with members := t.members, values := t.values, interfaces := t.interfaces }
  members : ListsByOrigin (records.flatMap (membersOf key)) t.members
  values : ∃ all, ListsByOrigin (records.flatMap (valuesOf key)) all ∧ t.values = all.eraseDups
  interfaces : t.interfaces = declaredInterfaces records key

/--
The result accounts for the records: it has the types and functions that they add up to, and every member in them is a
member of one type or an orphan.
-/
structure Accounts (records : List Record) (c : Collected) : Prop where
  namespaces_lt : (c.namespaces.map (·.name)).Pairwise (· < ·)
  namespace_iff : ∀ name, name ∈ c.namespaces.map (·.name)
    ↔ (∃ t o, .declare name t o ∈ records) ∨ ∃ f o, .function name f o ∈ records
  types_distinct : ∀ ns ∈ c.namespaces, (ns.types.map (·.name)).Nodup
  type_iff : ∀ key : TypeKey, (∃ ns ∈ c.namespaces, ns.name = key.namespace ∧ ∃ t ∈ ns.types, t.name = key.name)
    ↔ ∃ t o, .declare key.namespace t o ∈ records ∧ t.name = key.name
  types : ∀ ns ∈ c.namespaces, ∀ t ∈ ns.types, MadeOf records ⟨ns.name, t.name⟩ t
  functions : ∀ ns ∈ c.namespaces, ListsByOrigin (records.flatMap (functionsOf ns.name)) ns.functions
  members_balance : ((c.namespaces.flatMap (·.types)).flatMap (·.members)).length + c.orphans
    = (records.flatMap recordedMembers).length

theorem listsByOrigin_byOrigin (items : List (Origin × α)) : ListsByOrigin items (byOrigin items) := by
  have hsorts := sortsBy_origin (α := α)
  refine ⟨_, rfl, List.pairwise_mergeSort hsorts.le_trans hsorts.le_total items, ?_⟩
  intro o
  have hclass : ∀ x : Origin × α, (x.1 == o) = decide (x.1.lex = o.lex) := by
    intro x
    rw [Bool.eq_iff_iff, beq_iff_eq, decide_eq_true_iff]
    exact ⟨congrArg Origin.lex, Origin.lex_injective⟩
  simp only [hclass]
  exact hsorts.filter_mergeSort items o.lex

theorem byOrigin_perm (items : List (Origin × α)) : (byOrigin items).Perm (items.map (·.2)) :=
  (List.mergeSort_perm items _).map _

theorem split_of_earliest? {items : List (Origin × α)} {x : Origin × α} (h : earliest? items = some x) :
    ∃ before after, items = before ++ x :: after ∧ (∀ y ∈ before, y.1.le x.1 = false) ∧
      ∀ y ∈ after, x.1.le y.1 = true := by
  have hsorts := sortsBy_origin (α := α)
  induction items generalizing x with
  | nil => simp [earliest?] at h
  | cons z rest ih =>
    rw [earliest?] at h
    cases hrest : earliest? rest with
    | none =>
      rw [hrest] at h
      cases h
      exact ⟨[], [], by rw [eq_nil_of_earliest? hrest, List.nil_append], by simp, by simp⟩
    | some w =>
      obtain ⟨before, after, hitems, hbefore, hafter⟩ := ih hrest
      rw [hrest] at h
      dsimp only at h
      split at h
      . next hle =>
        cases h
        refine ⟨[], rest, rfl, by simp, ?_⟩
        intro y hy
        -- the rest has its least origin at `w`
        have hleast : w.1.le y.1 = true := by
          have htotal := hsorts.le_total w y
          rw [hitems, List.mem_append, List.mem_cons] at hy
          rcases hy with hy | rfl | hy
          . simpa [hbefore y hy] using htotal
          . simpa using htotal
          . exact hafter y hy
        exact hsorts.le_trans z w y hle hleast
      . next hnle =>
        cases h
        rw [Bool.not_eq_true] at hnle
        exact ⟨z :: before, after, by rw [hitems, List.cons_append], by simpa [hnle] using hbefore, hafter⟩

section Declarations

variable {records : List Record} {key : TypeKey}

theorem declarationOf?_eq_some {r : Record} {x : Origin × TypeEntry} :
    declarationOf? key r = some x ↔ r = .declare key.namespace x.2 x.1 ∧ x.2.name = key.name := by
  cases r with
  | declare ns t origin =>
    cases x
    cases key
    simp only [declarationOf?, Option.ite_none_right_eq_some, beq_iff_eq]
    grind
  | _ => simp [declarationOf?]

theorem mem_declaredKeys :
    key ∈ declaredKeys records ↔ ∃ t o, .declare key.namespace t o ∈ records ∧ t.name = key.name := by
  constructor
  . intro h
    obtain ⟨d, hd⟩ := exists_winner? h
    obtain ⟨r, hr, hkey⟩ := List.mem_filterMap.mp (mem_of_earliest? hd)
    obtain ⟨rfl, hname⟩ := declarationOf?_eq_some.mp hkey
    exact ⟨_, _, hr, hname⟩
  . rintro ⟨t, o, hr, hname⟩
    rw [declaredKeys, List.mem_eraseDups, List.mem_filterMap]
    exact ⟨_, hr, by rw [declaredKey?, hname]⟩

theorem split_of_winner? {x : Origin × TypeEntry} (h : winner? records key = some x) :
    ∃ before after, records = before ++ .declare key.namespace x.2 x.1 :: after ∧ x.2.name = key.name ∧
      (∀ e p, .declare key.namespace e p ∈ before → e.name = key.name → p.le x.1 = false) ∧
      (∀ e p, .declare key.namespace e p ∈ after → e.name = key.name → x.1.le p = true) := by
  obtain ⟨earlier, later, hsplit, hearlier, hlater⟩ := split_of_earliest? h
  obtain ⟨before, rest, hrecords, hbefore, hrest⟩ := List.filterMap_eq_append_iff.mp hsplit
  obtain ⟨skipped, r, after, hafter, hskipped, hr, hlast⟩ := List.filterMap_eq_cons_iff.mp hrest
  obtain ⟨rfl, hname⟩ := declarationOf?_eq_some.mp hr
  refine ⟨before ++ skipped, after, by rw [hrecords, hafter, List.append_assoc], hname, ?_, ?_⟩
  . intro e p he hkey
    have hdeclares := declarationOf?_eq_some (r := .declare key.namespace e p) (x := (p, e)) |>.mpr ⟨rfl, hkey⟩
    rw [List.mem_append] at he
    cases he with
    | inl he => exact hearlier (p, e) (hbefore ▸ List.mem_filterMap.mpr ⟨_, he, hdeclares⟩)
    | inr he => simp [hskipped _ he] at hdeclares
  . intro e p he hkey
    have hdeclares := declarationOf?_eq_some (r := .declare key.namespace e p) (x := (p, e)) |>.mpr ⟨rfl, hkey⟩
    exact hlater (p, e) (hlast ▸ List.mem_filterMap.mpr ⟨_, he, hdeclares⟩)

theorem madeOf_of_typeOf? {o : Origin} {t : TypeEntry} (h : typeOf? records key = some (o, t)) :
    MadeOf records key t := by
  rw [typeOf?_eq_winner?, Option.map_eq_some_iff] at h
  obtain ⟨d, hd, heq⟩ := h
  obtain ⟨before, after, hrecords, hname, hbefore, hafter⟩ := split_of_winner? hd
  cases heq
  exact ⟨⟨before, d.2, d.1, after, hrecords, hname, hbefore, hafter, rfl⟩, listsByOrigin_byOrigin _,
    ⟨_, listsByOrigin_byOrigin _, rfl⟩, rfl⟩

/--
A declared key makes one type, with the name of the key and as many members as the records have for it.
-/
theorem exists_typeOf? (h : key ∈ declaredKeys records) :
    ∃ o t, typeOf? records key = some (o, t) ∧ t.name = key.name ∧
      t.members.length = (records.flatMap (membersOf key)).length := by
  obtain ⟨d, hd⟩ := exists_winner? h
  rw [typeOf?_eq_winner?, hd, Option.map_some]
  refine ⟨_, _, rfl, (declares_of_winner? hd).2, ?_⟩
  rw [(byOrigin_perm _).length_eq, List.length_map]

end Declarations

section Collect

variable (records : List Record)

theorem nodup_declaredKeys : (declaredKeys records).Nodup :=
  Distinct.nodup_eraseDups _

theorem map_name_collect : (collect records).namespaces.map (·.name) = namespaceNames records := by
  simp [collect, Function.comp_def]

theorem nodup_namespaceNames : (namespaceNames records).Nodup :=
  (List.mergeSort_perm _ _).nodup_iff.mpr (Distinct.nodup_eraseDups _)

theorem namespaceNames_lt : (namespaceNames records).Pairwise (· < ·) :=
  pairwise_lt_sorted_names _

theorem mem_functionNames {name : String} :
    name ∈ records.filterMap functionName? ↔ ∃ f o, .function name f o ∈ records := by
  rw [List.mem_filterMap]
  constructor
  . rintro ⟨r, hr, hname⟩
    cases r with
    | function ns f o =>
      cases hname
      exact ⟨f, o, hr⟩
    | _ => simp [functionName?] at hname
  . rintro ⟨f, o, hr⟩
    exact ⟨_, hr, rfl⟩

theorem nodup_typeNames {ns : Namespace} (h : ns ∈ (collect records).namespaces) : (ns.types.map (·.name)).Nodup := by
  simp only [collect, List.mem_map] at h
  obtain ⟨name, -, rfl⟩ := h
  have hnames : (((declaredKeys records).filter (fun k => k.namespace == name)).filterMap (typeOf? records)).map
      (·.2.name) = ((declaredKeys records).filter (fun k => k.namespace == name)).map (·.name) := by
    rw [List.map_filterMap, ← List.filterMap_eq_map]
    apply List.filterMap_congr
    intro key hkey
    obtain ⟨o, t, htype, hname, -⟩ := exists_typeOf? (List.mem_of_mem_filter hkey)
    rw [htype, Option.map_some, hname]
    rfl
  rw [((byOrigin_perm _).map _).nodup_iff, List.map_map, Function.comp_def, hnames]
  apply ((nodup_declaredKeys records).filter _).map_on
  intro a ha b hb hname
  rw [List.mem_filter, beq_iff_eq] at ha hb
  cases a
  cases b
  simp_all

theorem exists_mem_types_iff (key : TypeKey) :
    (∃ ns ∈ (collect records).namespaces, ns.name = key.namespace ∧ ∃ t ∈ ns.types, t.name = key.name)
      ↔
    key ∈ declaredKeys records := by
  constructor
  . rintro ⟨ns, hns, hspace, t, ht, hname⟩
    obtain ⟨o, htype⟩ := typeOf?_of_mem_collect hns ht
    rw [typeOf?_eq_winner?, Option.map_eq_some_iff, hspace, hname] at htype
    obtain ⟨d, hd, -⟩ := htype
    exact (declares_of_winner? hd).1
  . exact exists_mem_collect

/--
Grouping the declared keys by namespaces keeps each of them once.
-/
theorem flatMap_keys_perm :
    ((namespaceNames records).flatMap (fun name => (declaredKeys records).filter (fun k => k.namespace == name))).Perm
      (declaredKeys records) := by
  rw [List.perm_ext_iff_of_nodup _ (nodup_declaredKeys records)]
  . intro key
    simp only [List.mem_flatMap, List.mem_filter, beq_iff_eq]
    constructor
    . rintro ⟨_, _, hkey, _⟩
      exact hkey
    . intro hkey
      exact ⟨_, mem_namespaceNames.mpr (.inl ⟨key, hkey, rfl⟩), hkey, rfl⟩
  . rw [List.nodup_flatMap]
    refine ⟨fun _ _ => (nodup_declaredKeys records).filter _, (nodup_namespaceNames records).imp ?_⟩
    intro a b hne key ha hb
    rw [List.mem_filter, beq_iff_eq] at ha hb
    exact hne (ha.2.symm.trans hb.2)

/--
The types of all namespaces are those that the declared keys make.
-/
theorem types_perm :
    ((collect records).namespaces.flatMap (·.types)).Perm
      (((declaredKeys records).filterMap (typeOf? records)).map (·.2)) := by
  have hgroups := ((flatMap_keys_perm records).filterMap (typeOf? records)).map (·.2)
  rw [List.filterMap_flatMap, List.map_flatMap] at hgroups
  refine List.Perm.trans ?_ hgroups
  simp only [collect, List.flatMap_map]
  exact List.Perm.flatMap_left _ (fun _ _ => byOrigin_perm _)

theorem length_members_collect :
    (((collect records).namespaces.flatMap (·.types)).flatMap (·.members)).length
      =
    ((records.filter (isAbout (declaredKeys records))).flatMap recordedMembers).length := by
  rw [((types_perm records).flatMap_right _).length_eq, ← sum_length_flatMap_membersOf (nodup_declaredKeys records),
    List.length_flatMap, List.map_map, List.map_filterMap, ← List.filterMap_eq_map]
  congr 1
  apply List.filterMap_congr
  intro key hkey
  obtain ⟨o, t, htype, -, hlength⟩ := exists_typeOf? hkey
  rw [htype, Option.map_some]
  exact congrArg some hlength

end Collect

end Ledger

theorem Assembly.accounts_finish (records : List Record) : Ledger.Accounts records (ofRecords records).finish := by
  rw [finish_ofRecords]
  constructor
  . rw [Ledger.map_name_collect]
    exact Ledger.namespaceNames_lt records
  . intro name
    rw [Ledger.map_name_collect, Ledger.mem_namespaceNames, Ledger.mem_functionNames]
    apply or_congr_left
    constructor
    . rintro ⟨key, hkey, rfl⟩
      obtain ⟨t, o, hr, -⟩ := Ledger.mem_declaredKeys.mp hkey
      exact ⟨t, o, hr⟩
    . rintro ⟨t, o, hr⟩
      exact ⟨⟨name, t.name⟩, Ledger.mem_declaredKeys.mpr ⟨t, o, hr, rfl⟩, rfl⟩
  . intro ns hns
    exact Ledger.nodup_typeNames records hns
  . intro key
    rw [Ledger.exists_mem_types_iff, Ledger.mem_declaredKeys]
  . intro ns hns t ht
    obtain ⟨o, htype⟩ := Ledger.typeOf?_of_mem_collect hns ht
    exact Ledger.madeOf_of_typeOf? htype
  . intro ns hns
    simp only [Ledger.collect, List.mem_map] at hns
    obtain ⟨name, -, rfl⟩ := hns
    exact Ledger.listsByOrigin_byOrigin _
  . have horphans : (Ledger.collect records).orphans = Ledger.orphanCount records := rfl
    rw [Ledger.length_members_collect, horphans, Ledger.orphanCount_eq_length, Ledger.length_recordedMembers_split]

end ApiSurface
