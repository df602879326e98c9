import ApiSurface.Proofs.Extraction.Interleaving

/-!
This module contains what the order of the records does to what they add up to. Where the records of each file are in
the same order, everything that the ledger sorts by origin comes out the same. Interfaces it does not sort.
-/

namespace ApiSurface

/--
The type without its interfaces.
-/
def TypeEntry.withoutInterfaces (t : TypeEntry) : TypeEntry :=
  { t with interfaces := [] }

/--
All that is collected but the interfaces of the types.
-/
def Collected.withoutInterfaces (c : Collected) : Collected :=
  { c with namespaces := c.namespaces.map fun ns =>
      { ns with types := ns.types.map TypeEntry.withoutInterfaces } }

namespace Ledger

/--
The declaration of a key that counts.
-/
def winner? (records : List Record) (key : TypeKey) : Option (Origin × TypeEntry) :=
  earliest? (records.filterMap (declarationOf? key))

/--
Types of different keys are declared at different places, by the declarations that count.
-/
def WinnersApart (records : List Record) : Prop :=
  ∀ a b x y, winner? records a = some x → winner? records b = some y → x.1 = y.1 → a = b

theorem declares_of_winner? {records : List Record} {key : TypeKey} {d : Origin × TypeEntry}
    (h : winner? records key = some d) : key ∈ declaredKeys records ∧ d.2.name = key.name := by
  have hmem := mem_of_earliest? h
  rw [List.mem_filterMap] at hmem
  obtain ⟨r, hr, hd⟩ := hmem
  rw [declaredKeys, List.mem_eraseDups, List.mem_filterMap]
  cases r with
  | declare ns t origin =>
    simp only [declarationOf?, Option.ite_none_right_eq_some, beq_iff_eq] at hd
    obtain ⟨rfl, heq⟩ := hd
    cases heq
    exact ⟨⟨_, hr, rfl⟩, rfl⟩
  | _ => simp [declarationOf?] at hd

theorem exists_winner? {records : List Record} {key : TypeKey} (h : key ∈ declaredKeys records) :
    ∃ d, winner? records key = some d := by
  rw [declaredKeys, List.mem_eraseDups, List.mem_filterMap] at h
  obtain ⟨r, hr, hkey⟩ := h
  have hne : records.filterMap (declarationOf? key) ≠ [] := by
    cases r with
    | declare ns t origin =>
      cases hkey
      have hdeclares : declarationOf? ⟨ns, t.name⟩ (.declare ns t origin) = some (origin, t) := by simp [declarationOf?]
      exact List.ne_nil_of_mem (List.mem_filterMap.mpr ⟨_, hr, hdeclares⟩)
    | _ => simp [declaredKey?] at hkey
  rw [← Option.isSome_iff_exists, winner?, isSome_earliest?]
  exact hne

theorem winnersApart_of_declaredKeys {records : List Record}
    (h : ∀ a ∈ declaredKeys records, ∀ b ∈ declaredKeys records,
      (winner? records a).map (·.1) = (winner? records b).map (·.1) → a = b) : WinnersApart records := by
  intro a b x y hx hy heq
  apply h a (declares_of_winner? hx).1 b (declares_of_winner? hy).1
  rw [hx, hy, Option.map_some, Option.map_some, heq]

theorem typeOf?_eq_winner? (records : List Record) (key : TypeKey) :
    typeOf? records key = (winner? records key).map fun d =>
      (d.1, { d.2 with
        members := byOrigin (records.flatMap (membersOf key))
        values := (byOrigin (records.flatMap (valuesOf key))).eraseDups
        interfaces := ((records.filterMap (declarationOf? key)).flatMap (fun d => d.2.interfaces)).eraseDups }) := by
  unfold typeOf? winner?
  split
  . next hnone => rw [hnone, Option.map_none]
  . next hsome => rw [hsome, Option.map_some]

namespace SameByFile

variable {xs ys : List Record} (h : SameByFile xs ys)

include h

theorem winner?_eq (key : TypeKey) : winner? xs key = winner? ys key := by
  unfold winner?
  rw [List.filterMap_eq_flatMap_toList, List.filterMap_eq_flatMap_toList]
  apply earliest?_eq_of_filter_eq
  exact h.filter_flatMap_eq (placed_declarationOf? key)

theorem typeOf?_eq (key : TypeKey) :
    (typeOf? xs key).map (fun d => (d.1, d.2.withoutInterfaces))
      =
    (typeOf? ys key).map (fun d => (d.1, d.2.withoutInterfaces)) := by
  rw [typeOf?_eq_winner?, typeOf?_eq_winner?, h.winner?_eq, h.byOrigin_flatMap_eq (placed_membersOf key),
    h.byOrigin_flatMap_eq (placed_valuesOf key)]
  simp [TypeEntry.withoutInterfaces, Function.comp_def]

theorem declaredKeys_perm : (declaredKeys xs).Perm (declaredKeys ys) := by
  apply eraseDups_perm
  exact h.perm.filterMap declaredKey?

theorem namespaceNames_eq : namespaceNames xs = namespaceNames ys := by
  apply sortsBy_name.mergeSort_eq_of_perm
  . apply eraseDups_perm
    exact h.perm.filterMap _
  . intro a _ b _ heq
    exact heq

theorem importingNames_eq : importingNames xs = importingNames ys := by
  apply sortsBy_name.mergeSort_eq_of_perm
  . apply eraseDups_perm
    exact h.perm.filterMap _
  . intro a _ b _ heq
    exact heq

theorem sorted_imports_eq (name : String) :
    (xs.flatMap (importsOf name)).mergeSort Import.le = (ys.flatMap (importsOf name)).mergeSort Import.le := by
  apply sortsBy_import.mergeSort_eq_of_perm
  . exact h.perm.flatMap_right _
  . intro a _ b _ heq
    exact Import.lex_injective heq

theorem orphanCount_eq : orphanCount xs = orphanCount ys := by
  have hdeclared : ∀ k, (declaredKeys xs).contains k = (declaredKeys ys).contains k := by
    intro k
    rw [Bool.eq_iff_iff, List.contains_iff_mem, List.contains_iff_mem, h.declaredKeys_perm.mem_iff]
  unfold orphanCount
  simp only [hdeclared]
  exact (h.perm.filter _).length_eq

theorem types_eq (hapart : WinnersApart xs) (name : String) :
    (byOrigin (((declaredKeys xs).filter (fun k => k.namespace == name)).filterMap (typeOf? xs))).map
        TypeEntry.withoutInterfaces
      =
    (byOrigin (((declaredKeys ys).filter (fun k => k.namespace == name)).filterMap (typeOf? ys))).map
        TypeEntry.withoutInterfaces := by
  rw [map_byOrigin, map_byOrigin, List.map_filterMap, List.map_filterMap]
  simp only [h.typeOf?_eq]
  apply byOrigin_eq_of_perm
  . apply List.Perm.filterMap
    exact h.declaredKeys_perm.filter _
  . rw [List.map_filterMap]
    apply List.Nodup.filterMap
    . intro a b o ha hb
      rw [Option.mem_def, ← h.typeOf?_eq, typeOf?_eq_winner?] at ha hb
      simp only [Option.map_map, Option.map_eq_some_iff] at ha hb
      obtain ⟨x, hx, rfl⟩ := ha
      obtain ⟨y, hy, hxy⟩ := hb
      exact hapart a b x y hx hy hxy.symm
    . exact (Distinct.nodup_eraseDups _).filter _

theorem collect_eq (hapart : WinnersApart xs) :
    (collect xs).withoutInterfaces = (collect ys).withoutInterfaces := by
  unfold collect Collected.withoutInterfaces
  simp only [List.map_map, Function.comp_def]
  rw [h.namespaceNames_eq, h.importingNames_eq, h.orphanCount_eq]
  simp only [h.types_eq hapart, h.sorted_imports_eq, h.byOrigin_flatMap_eq (placed_functionsOf _)]

end SameByFile

theorem Interleaving.collect_eq {files : List FileRecords} {arrived : List Record} (hpaths : (files.map (·.path)).Nodup)
    (hapart : WinnersApart (files.flatMap (·.records))) (h : Interleaving (files.map (·.records)) arrived) :
    (collect arrived).withoutInterfaces = (collect (files.flatMap (·.records))).withoutInterfaces :=
  ((h.sameByFile hpaths).symm.collect_eq hapart).symm

theorem exists_mem_collect {records : List Record} {key : TypeKey} (h : key ∈ declaredKeys records) :
    ∃ ns ∈ (collect records).namespaces, ns.name = key.namespace ∧ ∃ t ∈ ns.types, t.name = key.name := by
  obtain ⟨d, hd⟩ := exists_winner? h
  have hname : key.namespace ∈ namespaceNames records := by
    simp only [declaredKeys, List.mem_eraseDups, List.mem_filterMap] at h
    simp only [namespaceNames, List.mem_mergeSort, List.mem_eraseDups, List.mem_filterMap]
    obtain ⟨r, hr, hkey⟩ := h
    refine ⟨r, hr, ?_⟩
    cases r with
    | declare ns t origin =>
      cases hkey
      rfl
    | _ => simp [declaredKey?] at hkey
  refine ⟨_, List.mem_map_of_mem hname, rfl, ?_⟩
  have htype := typeOf?_eq_winner? records key
  rw [hd, Option.map_some] at htype
  refine ⟨_, mem_byOrigin.mpr ⟨d.1, List.mem_filterMap.mpr ⟨key, ?_, htype⟩⟩, ?_⟩
  . simp [h]
  . exact (declares_of_winner? hd).2

/--
The interfaces that a record declares for a key.
-/
def interfacesOf (key : TypeKey) (r : Record) : List String :=
  (declarationOf? key r).toList.flatMap (fun d => d.2.interfaces)

/--
At most one of the files names interfaces for the key.
-/
def OneFileNames (files : List FileRecords) (key : TypeKey) : Prop :=
  ∃ path, ∀ f ∈ files, f.path ≠ path → ∀ r ∈ f.records, interfacesOf key r = []

theorem typeOf?_of_mem_collect {records : List Record} {ns : Namespace} {t : TypeEntry}
    (hns : ns ∈ (collect records).namespaces) (ht : t ∈ ns.types) :
    ∃ o, typeOf? records ⟨ns.name, t.name⟩ = some (o, t) := by
  simp only [collect, List.mem_map] at hns
  obtain ⟨name, _, rfl⟩ := hns
  simp only [mem_byOrigin, List.mem_filterMap, List.mem_filter, beq_iff_eq] at ht
  obtain ⟨o, key, ⟨_, rfl⟩, htype⟩ := ht
  refine ⟨o, ?_⟩
  have hname : t.name = key.name := by
    rw [typeOf?_eq_winner?, Option.map_eq_some_iff] at htype
    obtain ⟨d, hd, heq⟩ := htype
    cases heq
    exact (declares_of_winner? hd).2
  rw [hname]
  exact htype

theorem interfaces_of_mem_collect {records : List Record} {ns : Namespace} {t : TypeEntry}
    (hns : ns ∈ (collect records).namespaces) (ht : t ∈ ns.types) :
    t.interfaces = (records.flatMap (interfacesOf ⟨ns.name, t.name⟩)).eraseDups := by
  obtain ⟨o, htype⟩ := typeOf?_of_mem_collect hns ht
  rw [typeOf?_eq_winner?, Option.map_eq_some_iff] at htype
  obtain ⟨d, _, heq⟩ := htype
  rw [List.filterMap_eq_flatMap_toList, List.flatMap_assoc] at heq
  rw [← congrArg (fun d => d.2.interfaces) heq]
  rfl

theorem SameByFile.flatMap_interfacesOf_eq {files : List FileRecords} {xs : List Record} {key : TypeKey}
    (h : SameByFile xs (files.flatMap (·.records))) (hone : OneFileNames files key) :
    xs.flatMap (interfacesOf key) = (files.flatMap (·.records)).flatMap (interfacesOf key) := by
  obtain ⟨path, hpath⟩ := hone
  have hnil : ∀ r ∈ files.flatMap (·.records), r.isFrom path = false → interfacesOf key r = [] := by
    intro r hr hfrom
    obtain ⟨f, hf, hrf⟩ := List.mem_flatMap.mp hr
    by_cases hfile : f.path = path
    . -- the record is in the file and names no place in it, so it declares nothing
      cases r with
      | declare ns t origin =>
        have := f.origin_file _ hrf origin rfl
        simp [Record.isFrom, Record.origin?, this, hfile] at hfrom
      | _ => rfl
    . exact hpath f hf hfile r hrf
  rw [← flatMap_filter_of_nil hnil, ← flatMap_filter_of_nil (p := Record.isFrom path), h.filter_eq]
  intro r hr
  exact hnil r (h.perm.mem_iff.mp hr)

end Ledger

end ApiSurface
