import ApiSurface.Proofs.Lists
import ApiSurface.Proofs.Reference.Edges
import ApiSurface.Usage.Clients

/-!
This module contains what the table of clients says of an index. Its entries are in order and no name occurs twice. It
goes by names without namespaces: of several clients of one name it has the operations of the last one, and no others.
-/

namespace ApiSurface

/--
The members that a caller invokes on a value of the type.
-/
def TypeEntry.operations (t : TypeEntry) : List Member :=
  t.callables.filter (fun m => m.kind != .constructor)

/--
A caller can invoke something of this name on a value of the type.
-/
def TypeEntry.HasOperation (t : TypeEntry) (method : String) : Prop :=
  ∃ m ∈ t.operations, m.name = method

namespace Index

/--
The reachable types with operations, in order.
-/
def clientTypes (i : Index) : List TypeEntry :=
  (i.types.filter fun d =>
    (ReferenceGraph.ofIndex i).reachable.contains (declaredKey d) && !d.2.operations.isEmpty).map (·.2)

/--
The last client of this name.
-/
def clientNamed? (i : Index) (name : String) : Option TypeEntry :=
  (i.clientTypes.filter (fun t => t.name == name)).getLast?

/--
Names of clients, one of which is declared with the other as a parent.
-/
structure Related (i : Index) (a b : String) : Prop where
  left : (i.clientNamed? a).isSome
  right : (i.clientNamed? b).isSome
  declared : ∃ d ∈ i.types, (d.2.name = a ∧ b ∈ d.2.parents.map Text.bareName) ∨
    (d.2.name = b ∧ a ∈ d.2.parents.map Text.bareName)

theorem mem_clientTypes {i : Index} {t : TypeEntry} :
    t ∈ i.clientTypes
      ↔
    ∃ ns, (ns, t) ∈ i.types ∧ ⟨ns, t.name⟩ ∈ (ReferenceGraph.ofIndex i).reachable ∧ t.operations ≠ [] := by
  simp [clientTypes, declaredKey]

theorem mem_clientTypes_of_clientNamed? {i : Index} {name : String} {t : TypeEntry}
    (h : i.clientNamed? name = some t) : t ∈ i.clientTypes ∧ t.name = name := by
  have hmem := List.mem_of_getLast? h
  simpa using hmem

theorem exists_clientNamed? {i : Index} {t : TypeEntry} (ht : t ∈ i.clientTypes) :
    ∃ last, i.clientNamed? t.name = some last := by
  have hne : i.clientTypes.filter (fun u => u.name == t.name) ≠ [] :=
    List.ne_nil_of_mem (List.mem_filter.mpr ⟨ht, by simp⟩)
  exact ⟨_, List.getLast?_eq_some_getLast hne⟩

end Index

namespace Clients

/--
Clients are in the order of their names, and so are the operations of each.
-/
structure WellFormed (c : Clients) : Prop where
  clients_lt : c.operations.Pairwise (fun a b => a.1 < b.1)
  operations_lt : ∀ e ∈ c.operations, e.2.Pairwise (fun a b => a.1 < b.1)

section Entries

variable {es : List (String × β)} {key : String} {value : β}

theorem map_fst_enter :
    (enter key value es).map (·.1) = if key ∈ es.map (·.1) then es.map (·.1) else es.map (·.1) ++ [key] := by
  have hany : es.any (fun e => e.1 == key) = true ↔ key ∈ es.map (·.1) := by simp
  unfold enter
  by_cases hkey : key ∈ es.map (·.1)
  . rw [if_pos (hany.mpr hkey), if_pos hkey]
  . rw [if_neg (mt hany.mp hkey), if_neg hkey, List.map_append, List.map_singleton]

theorem mem_keys_enter {k : String} : k ∈ (enter key value es).map (·.1) ↔ k ∈ es.map (·.1) ∨ key = k := by
  rw [map_fst_enter]
  split
  . next hkey => exact (or_iff_left_of_imp (fun heq => heq ▸ hkey)).symm
  . rw [List.mem_append, List.mem_singleton, eq_comm (a := k)]

theorem nodup_keys_enter (h : (es.map (·.1)).Nodup) : ((enter key value es).map (·.1)).Nodup := by
  rw [map_fst_enter]
  split
  . exact h
  . next hkey =>
    rw [List.nodup_append]
    refine ⟨h, List.nodup_singleton key, ?_⟩
    intro k hk k' hk' heq
    rw [List.mem_singleton] at hk'
    exact hkey (hk' ▸ heq ▸ hk)

theorem mem_replace {e : String × β} : e ∈ replace key value es ↔ (e ∈ es ∧ e.1 ≠ key) ∨ e = (key, value) := by
  simp [replace]

theorem nodup_keys_replace (h : (es.map (·.1)).Nodup) : ((replace key value es).map (·.1)).Nodup := by
  unfold replace
  rw [List.map_append, List.map_singleton, List.nodup_append]
  refine ⟨h.sublist (List.filter_sublist.map _), List.nodup_singleton key, ?_⟩
  simp only [List.mem_map, List.mem_filter, List.mem_singleton, bne_iff_ne]
  rintro _ ⟨e, ⟨-, hne⟩, rfl⟩ _ rfl
  exact hne

theorem mem_sorted {e : String × β} : e ∈ sorted es ↔ e ∈ es :=
  (List.mergeSort_perm es _).mem_iff

theorem pairwise_sorted (h : (es.map (·.1)).Nodup) : (sorted es).Pairwise (fun a b => a.1 < b.1) := by
  have hsorts : SortsBy (fun a b : String × β => decide (a.1 ≤ b.1)) (·.1) := ⟨fun _ _ => decide_eq_true_iff⟩
  exact hsorts.pairwise_lt_mergeSort h

theorem lookup?_eq_some_iff (h : es.Pairwise (fun a b => a.1 < b.1)) :
    lookup? key es = some value ↔ (key, value) ∈ es := by
  have hdistinct : (es.map (·.1)).Nodup := by
    rw [List.Nodup, List.pairwise_map]
    exact h.imp ne_of_lt
  unfold lookup?
  rw [Option.map_eq_some_iff]
  constructor
  . rintro ⟨e, hfind, rfl⟩
    have hkey : e.1 = key := by simpa using List.find?_some hfind
    rw [← hkey]
    exact List.mem_of_find?_eq_some hfind
  . intro hmem
    obtain ⟨e, hfind⟩ : ∃ e, es.find? (fun e => e.1 == key) = some e := by
      rw [← Option.isSome_iff_exists, List.find?_isSome]
      exact ⟨(key, value), hmem, by simp⟩
    have hkey : e.1 = key := by simpa using List.find?_some hfind
    exact ⟨e, hfind, by rw [List.inj_on_of_nodup_map hdistinct (List.mem_of_find?_eq_some hfind) hmem hkey]⟩

end Entries

/--
Entries that are replaced one after the other: the last value of each key is left.
-/
theorem mem_foldl_replace (key : α → String) (value : α → β) (xs : List α) {e : String × β} :
    e ∈ xs.foldl (fun es x => replace (key x) (value x) es) []
      ↔
    ∃ x, (xs.filter (fun x => key x == e.1)).getLast? = some x ∧ value x = e.2 := by
  induction xs using List.reverseRecOn with
  | nil => simp
  | append_singleton xs x ih =>
    rw [List.foldl_append, List.foldl_cons, List.foldl_nil, mem_replace, ih, List.filter_append]
    by_cases hkey : key x = e.1
    . simp [hkey, Prod.ext_iff, eq_comm]
    . simp [hkey, Prod.ext_iff, Ne.symm hkey]

theorem nodup_keys_foldl_replace (key : α → String) (value : α → β) (xs : List α) :
    ((xs.foldl (fun es x => replace (key x) (value x) es) []).map (·.1)).Nodup := by
  induction xs using List.reverseRecOn with
  | nil => simp
  | append_singleton xs x ih =>
    rw [List.foldl_append, List.foldl_cons, List.foldl_nil]
    exact nodup_keys_replace ih

theorem operationsOf_eq (t : TypeEntry) :
    operationsOf t = sorted (t.operations.foldl (fun es m => enter m.name m.sig es) []) :=
  rfl

theorem nodup_keys_foldl_enter (ms : List Member) :
    ((ms.foldl (fun es m => enter m.name m.sig es) []).map (·.1)).Nodup := by
  induction ms using List.reverseRecOn with
  | nil => simp
  | append_singleton ms m ih =>
    rw [List.foldl_append, List.foldl_cons, List.foldl_nil]
    exact nodup_keys_enter ih

theorem mem_keys_operationsOf {t : TypeEntry} {method : String} :
    method ∈ (operationsOf t).map (·.1) ↔ t.HasOperation method := by
  have hsorted : method ∈ (operationsOf t).map (·.1)
      ↔ method ∈ (t.operations.foldl (fun es m => enter m.name m.sig es) []).map (·.1) := by
    rw [operationsOf_eq]
    exact ((List.mergeSort_perm _ _).map _).mem_iff
  rw [hsorted, foldl_iff_of_step (fun es : List (String × String) => method ∈ es.map (·.1)) (fun m => m.name = method)]
  . simp [TypeEntry.HasOperation]
  . intro es m
    exact mem_keys_enter

theorem isEmpty_operationsOf (t : TypeEntry) : (operationsOf t).isEmpty = t.operations.isEmpty := by
  rw [Bool.eq_iff_iff, List.isEmpty_iff, List.isEmpty_iff, ← List.map_eq_nil_iff (f := (·.1))]
  rw [List.eq_nil_iff_forall_not_mem, List.eq_nil_iff_forall_not_mem]
  simp only [mem_keys_operationsOf]
  constructor
  . intro hnone m hm
    exact hnone m.name ⟨m, hm, rfl⟩
  . rintro hnone _ ⟨m, hm, -⟩
    exact hnone m hm

theorem operationTable_eq (i : Index) :
    operationTable i = sorted (i.clientTypes.foldl (fun es t => replace t.name (operationsOf t) es) []) := by
  unfold operationTable Index.clientTypes
  rw [List.foldl_map, List.foldl_filter]
  simp only [isEmpty_operationsOf]
  rfl

theorem mem_operationTable {i : Index} {name : String} {ops : List (String × String)} :
    (name, ops) ∈ operationTable i ↔ ∃ t, i.clientNamed? name = some t ∧ operationsOf t = ops := by
  rw [operationTable_eq, mem_sorted]
  apply mem_foldl_replace

theorem any_operationTable {i : Index} {name : String} :
    (operationTable i).any (fun e => e.1 == name) = true ↔ (i.clientNamed? name).isSome := by
  rw [List.any_eq_true, Option.isSome_iff_exists]
  constructor
  . rintro ⟨⟨client, ops⟩, hmem, heq⟩
    rw [beq_iff_eq] at heq
    subst heq
    obtain ⟨t, ht, -⟩ := mem_operationTable.mp hmem
    exact ⟨t, ht⟩
  . rintro ⟨t, ht⟩
    exact ⟨(name, operationsOf t), mem_operationTable.mpr ⟨t, ht, rfl⟩, by simp⟩

theorem wellFormed_ofIndex (i : Index) : (ofIndex i).WellFormed where
  clients_lt := by
    change (operationTable i).Pairwise _
    rw [operationTable_eq]
    exact pairwise_sorted (nodup_keys_foldl_replace _ _ _)
  operations_lt := by
    rintro ⟨name, ops⟩ hmem
    obtain ⟨t, -, rfl⟩ := mem_operationTable.mp hmem
    rw [operationsOf_eq]
    exact pairwise_sorted (nodup_keys_foldl_enter _)

theorem has_iff {c : Clients} (hc : c.WellFormed) {client method : String} :
    c.has client method = true ↔ ∃ ops, (client, ops) ∈ c.operations ∧ method ∈ ops.map (·.1) := by
  unfold has
  simp only [List.any_eq_true, beq_iff_eq, List.mem_map, ← lookup?_eq_some_iff hc.clients_lt]
  cases lookup? client c.operations with
  | none => simp
  | some ops => simp

theorem has_iff_mem_all {c : Clients} (hc : c.WellFormed) {client method : String} :
    c.has client method = true ↔ ∃ sig, (client, method, sig) ∈ c.all := by
  rw [has_iff hc]
  simp only [all, List.mem_flatMap, List.mem_map]
  constructor
  . rintro ⟨ops, hclient, ⟨method, sig⟩, hop, rfl⟩
    exact ⟨sig, (client, ops), hclient, (method, sig), hop, rfl⟩
  . rintro ⟨sig, ⟨name, ops⟩, hclient, op, hop, heq⟩
    cases heq
    exact ⟨ops, hclient, op, hop, rfl⟩

theorem has_ofIndex {i : Index} {client method : String} :
    (ofIndex i).has client method = true ↔ ∃ t, i.clientNamed? client = some t ∧ t.HasOperation method := by
  rw [has_iff (wellFormed_ofIndex i)]
  constructor
  . rintro ⟨ops, hmem, hmethod⟩
    obtain ⟨t, ht, rfl⟩ := mem_operationTable.mp hmem
    exact ⟨t, ht, mem_keys_operationsOf.mp hmethod⟩
  . rintro ⟨t, ht, hoffers⟩
    exact ⟨operationsOf t, mem_operationTable.mpr ⟨t, ht, rfl⟩, mem_keys_operationsOf.mpr hoffers⟩

theorem related_ofIndex (i : Index) :
    (ofIndex i).related
      =
    (i.types.map (·.2)).flatMap fun t =>
      (t.parents.map Text.bareName).flatMap fun p =>
        if (operationTable i).any (fun e => e.1 == p) && (operationTable i).any (fun e => e.1 == t.name) then
          [(t.name, p), (p, t.name)]
        else [] :=
  rfl

theorem mem_relatives_ofIndex {i : Index} {client other : String} :
    other ∈ (ofIndex i).relatives client ↔ i.Related client other := by
  have hmem : other ∈ (ofIndex i).relatives client ↔ (client, other) ∈ (ofIndex i).related := by
    simp only [relatives, List.mem_map, List.mem_filter, beq_iff_eq, Prod.exists]
    constructor
    . rintro ⟨a, b, ⟨hpair, rfl⟩, rfl⟩
      exact hpair
    . intro hpair
      exact ⟨client, other, ⟨hpair, rfl⟩, rfl⟩
  rw [hmem, related_ofIndex, List.mem_flatMap]
  simp only [List.mem_map, List.mem_flatMap, List.mem_ite_nil_right, Bool.and_eq_true, any_operationTable,
    List.mem_cons, Prod.mk.injEq, List.not_mem_nil, or_false]
  constructor
  . rintro ⟨_, ⟨d, hd, rfl⟩, p, hp, ⟨hparent, hself⟩, ⟨rfl, rfl⟩ | ⟨rfl, rfl⟩⟩
    . exact ⟨hself, hparent, d, hd, Or.inl ⟨rfl, List.mem_map.mpr hp⟩⟩
    . exact ⟨hparent, hself, d, hd, Or.inr ⟨rfl, List.mem_map.mpr hp⟩⟩
  . rintro ⟨hleft, hright, d, hd, ⟨rfl, hparent⟩ | ⟨rfl, hparent⟩⟩
    . exact ⟨d.2, ⟨d, hd, rfl⟩, other, List.mem_map.mp hparent, ⟨hright, hleft⟩, Or.inl ⟨rfl, rfl⟩⟩
    . exact ⟨d.2, ⟨d, hd, rfl⟩, client, List.mem_map.mp hparent, ⟨hleft, hright⟩, Or.inr ⟨rfl, rfl⟩⟩

end Clients

end ApiSurface
