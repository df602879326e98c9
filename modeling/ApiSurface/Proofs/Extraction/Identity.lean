import Mathlib.Data.List.Nodup
import ApiSurface.Distinct
import ApiSurface.Extraction.Identity

/-!
This module contains the theory of ids. One walk gives them out, and each item gets the first id with its base that
nothing before it has: so all ids are distinct. What an id is derived from are names and types only, so ids that are
there already make no difference, and giving them out once more changes nothing.
-/

namespace ApiSurface

/--
The base with a number.
-/
def numberedId (base : String) (n : Nat) : String :=
  base ++ "#" ++ toString n

/--
The id is the base if that is free, and otherwise the base with the least number from two on that makes it free.
-/
inductive FirstFree (taken : List String) (base : String) : String → Prop where
  | plain : base ∉ taken → FirstFree taken base base
  | numbered : base ∈ taken → 2 ≤ n → numberedId base n ∉ taken →
      (∀ m, 2 ≤ m → m < n → numberedId base m ∈ taken) → FirstFree taken base (numberedId base n)

theorem numberedId_injective {base : String} {m n : Nat} (h : numberedId base m = numberedId base n) : m = n := by
  have hnumber : toString m = toString n := (String.append_right_inj (base ++ "#")).mp h
  have hdigits : Nat.toDigits 10 m = Nat.toDigits 10 n := by
    rw [← Nat.toList_repr, ← Nat.toList_repr]
    exact congrArg String.toList hnumber
  rw [← Nat.ofDigitChars_toDigits (by decide : 1 < 10) (by decide) (n := m), hdigits]
  exact Nat.ofDigitChars_toDigits (by decide) (by decide)

theorem exists_free_number (taken : List String) (base : String) (n : Nat) :
    ∃ k, n ≤ k ∧ k ≤ n + taken.length ∧ numberedId base k ∉ taken := by
  by_contra hnone
  -- the numbers make different ids, one more than there are taken ids
  have hdistinct : ((List.range (taken.length + 1)).map (fun d => numberedId base (n + d))).Nodup := by
    apply List.Nodup.map
    . intro a b hab
      have := numberedId_injective hab
      omega
    . apply List.nodup_range
  have htaken : ∀ id ∈ (List.range (taken.length + 1)).map (fun d => numberedId base (n + d)), id ∈ taken := by
    intro id hid
    simp only [List.mem_map, List.mem_range] at hid
    obtain ⟨d, hd, rfl⟩ := hid
    by_contra hfree
    exact hnone ⟨n + d, by omega, by omega, hfree⟩
  have hlength := Distinct.length_filter_add_length_le hdistinct htaken
  simp only [List.length_map, List.length_range] at hlength
  omega

theorem freeId_eq_numberedId {taken : List String} {base : String} {fuel n : Nat}
    (hfree : ∃ k, n ≤ k ∧ k ≤ n + fuel ∧ numberedId base k ∉ taken) :
    ∃ k, n ≤ k ∧ freeId taken base fuel n = numberedId base k ∧ numberedId base k ∉ taken ∧
      ∀ m, n ≤ m → m < k → numberedId base m ∈ taken := by
  induction fuel generalizing n with
  | zero =>
    obtain ⟨k, hle, hge, hk⟩ := hfree
    have heq : k = n := by omega
    subst heq
    exact ⟨k, Nat.le_refl k, rfl, hk, by omega⟩
  | succ fuel ih =>
    obtain ⟨k, hle, hge, hk⟩ := hfree
    simp only [freeId, List.contains_iff_mem]
    split
    . next htaken =>
      have hne : k ≠ n := by
        intro heq
        exact hk (heq ▸ htaken)
      have hlater : ∃ k, n + 1 ≤ k ∧ k ≤ n + 1 + fuel ∧ numberedId base k ∉ taken := ⟨k, by omega, by omega, hk⟩
      obtain ⟨k', hle', heq, hk', hleast⟩ := ih hlater
      refine ⟨k', by omega, heq, hk', ?_⟩
      intro m hm hlt
      by_cases hmn : m = n
      . rw [hmn]
        exact htaken
      . exact hleast m (by omega) hlt
    . next hfree => exact ⟨n, Nat.le_refl n, rfl, hfree, by omega⟩

theorem firstFree_uniqueId (taken : List String) (base : String) : FirstFree taken base (uniqueId taken base) := by
  unfold uniqueId
  split
  . next htaken =>
    rw [List.contains_iff_mem] at htaken
    obtain ⟨n, hle, heq, hfree, hleast⟩ := freeId_eq_numberedId (exists_free_number taken base 2)
    rw [heq]
    exact .numbered htaken hle hfree hleast
  . next hfree =>
    rw [List.contains_iff_mem] at hfree
    exact .plain hfree

namespace FirstFree

variable {taken : List String} {base id : String}

theorem not_mem (h : FirstFree taken base id) : id ∉ taken := by
  cases h with
  | plain hfree => exact hfree
  | numbered _ _ hfree _ => exact hfree

theorem exists_eq_append (h : FirstFree taken base id) : ∃ suffix, id = base ++ suffix := by
  cases h with
  | plain _ => exact ⟨"", (String.append_empty).symm⟩
  | @numbered n _ _ _ _ => exact ⟨"#" ++ toString n, String.append_assoc⟩

theorem of_mem_iff {taken' : List String} (hmem : ∀ x, x ∈ taken ↔ x ∈ taken') (h : FirstFree taken base id) :
    FirstFree taken' base id := by
  cases h with
  | plain hfree => exact .plain (mt (hmem _).mpr hfree)
  | numbered htaken hle hfree hleast =>
    exact .numbered ((hmem _).mp htaken) hle (mt (hmem _).mpr hfree) fun m hm hlt => (hmem _).mp (hleast m hm hlt)

end FirstFree

/--
Ids given out one after the other: every item, which comes with the base of its id, has the first free id, and that is
taken from then on.
-/
inductive Allots : List String → List (String × Option String) → List String → Prop where
  | done : Allots taken [] taken
  | next {id : String} : FirstFree taken base id → Allots (id :: taken) items taken' →
      Allots taken ((base, some id) :: items) taken'

namespace Allots

variable {taken taken' taken'' : List String} {items more : List (String × Option String)}

theorem append (h : Allots taken items taken') (hmore : Allots taken' more taken'') :
    Allots taken (items ++ more) taken'' := by
  induction h with
  | done => exact hmore
  | next hfree _ ih => exact .next hfree (ih hmore)

theorem firstFree_at {base : String} {id : Option String} {after : List (String × Option String)}
    (h : Allots taken (items ++ (base, id) :: after) taken') :
    ∃ given, id = some given ∧ FirstFree (items.filterMap (·.2) ++ taken) base given := by
  induction items generalizing taken with
  | nil =>
    cases h with
    | next hfree _ => exact ⟨_, rfl, hfree⟩
  | cons item items ih =>
    cases h with
    | next _ hrest =>
      obtain ⟨given, hid, hfree⟩ := ih hrest
      refine ⟨given, hid, hfree.of_mem_iff ?_⟩
      intro x
      simp only [List.mem_append, List.mem_cons]
      grind

theorem ids_eq (h : Allots taken items taken') : items.map (·.2) = (items.filterMap (·.2)).map some := by
  induction h with
  | done => rfl
  | next _ _ ih => simpa using ih

theorem nodup_ids (h : Allots taken items taken') (htaken : taken.Nodup) :
    (items.filterMap (·.2) ++ taken).Nodup := by
  induction h with
  | done => exact htaken
  | @next taken base items taken' id hfree _ ih =>
    have hnodup := ih (List.nodup_cons.mpr ⟨hfree.not_mem, htaken⟩)
    rw [List.nodup_middle] at hnodup
    exact hnodup

end Allots

/--
The base of the type's id and the id, and then the same for every member.
-/
def TypeEntry.idItems (ns : String) (t : TypeEntry) : List (String × Option String) :=
  (qualify ns t.name, t.id) :: t.members.map (fun m => (memberIdBase (t.id.getD "") m, m.id))

/--
The bases and ids of all types with their members, and then those of the functions.
-/
def Namespace.idItems (ns : Namespace) : List (String × Option String) :=
  ns.types.flatMap (TypeEntry.idItems ns.name) ++ ns.functions.map (fun f => (functionIdBase ns.name f, f.id))

/--
Every id in the namespaces with the base it is derived from, in the order in which ids are given out.
-/
def idItems (nss : List Namespace) : List (String × Option String) :=
  nss.flatMap Namespace.idItems

def Member.withoutId (m : Member) : Member :=
  { m with id := none }

def TypeEntry.withoutIds (t : TypeEntry) : TypeEntry :=
  { t with id := none, members := t.members.map Member.withoutId }

def Namespace.withoutIds (ns : Namespace) : Namespace :=
  { ns with types := ns.types.map TypeEntry.withoutIds, functions := ns.functions.map Member.withoutId }

/--
The base of an id does not depend on an id that is there already.
-/
def IgnoresId (base : Member → String) : Prop :=
  ∀ m id, base { m with id := id } = base m

theorem ignoresId_memberIdBase (typeId : String) : IgnoresId (memberIdBase typeId) := by
  intro m id
  rfl

theorem ignoresId_functionIdBase (ns : String) : IgnoresId (functionIdBase ns) := by
  intro m id
  rfl

section Members

variable {base : Member → String} (hbase : IgnoresId base) (taken : List String) (ms : List Member)

include hbase

theorem allots_assignMemberIds :
    Allots taken ((assignMemberIds base taken ms).1.map (fun m => (base m, m.id)))
      (assignMemberIds base taken ms).2 := by
  induction ms generalizing taken with
  | nil => exact .done
  | cons m ms ih =>
    simp only [assignMemberIds, List.map_cons]
    rw [hbase]
    exact .next (firstFree_uniqueId taken (base m)) (ih _)

theorem assignMemberIds_withoutId :
    assignMemberIds base taken (ms.map Member.withoutId) = assignMemberIds base taken ms := by
  induction ms generalizing taken with
  | nil => rfl
  | cons m ms ih =>
    have hm : base m.withoutId = base m := hbase m none
    simp only [List.map_cons, assignMemberIds, hm, ih]
    rfl

omit hbase in
theorem withoutId_assignMemberIds :
    (assignMemberIds base taken ms).1.map Member.withoutId = ms.map Member.withoutId := by
  induction ms generalizing taken with
  | nil => rfl
  | cons m ms ih =>
    simp only [assignMemberIds, List.map_cons, ih]
    rfl

end Members

section Types

variable (ns : String) (taken : List String) (ts : List TypeEntry)

theorem allots_assignTypeIds :
    Allots taken ((assignTypeIds ns taken ts).1.flatMap (TypeEntry.idItems ns)) (assignTypeIds ns taken ts).2 := by
  induction ts generalizing taken with
  | nil => exact .done
  | cons t ts ih =>
    simp only [assignTypeIds, List.flatMap_cons, TypeEntry.idItems, Option.getD_some, List.cons_append]
    apply Allots.next (firstFree_uniqueId _ _)
    exact (allots_assignMemberIds (ignoresId_memberIdBase _) _ _).append (ih _)

theorem assignTypeIds_withoutIds :
    assignTypeIds ns taken (ts.map TypeEntry.withoutIds) = assignTypeIds ns taken ts := by
  induction ts generalizing taken with
  | nil => rfl
  | cons t ts ih =>
    simp only [List.map_cons, assignTypeIds, TypeEntry.withoutIds,
      assignMemberIds_withoutId (ignoresId_memberIdBase _), ih]

theorem withoutIds_assignTypeIds :
    (assignTypeIds ns taken ts).1.map TypeEntry.withoutIds = ts.map TypeEntry.withoutIds := by
  induction ts generalizing taken with
  | nil => rfl
  | cons t ts ih =>
    simp only [assignTypeIds, List.map_cons, ih, TypeEntry.withoutIds, withoutId_assignMemberIds]

end Types

section Namespaces

variable (taken : List String) (nss : List Namespace)

theorem allots_assignNamespaceIds : ∃ taken', Allots taken (idItems (assignNamespaceIds taken nss)) taken' := by
  induction nss generalizing taken with
  | nil => exact ⟨taken, .done⟩
  | cons ns nss ih =>
    simp only [assignNamespaceIds, idItems, List.flatMap_cons, Namespace.idItems]
    have htypes := allots_assignTypeIds ns.name taken ns.types
    have hfunctions := allots_assignMemberIds (ignoresId_functionIdBase ns.name)
      (assignTypeIds ns.name taken ns.types).2 ns.functions
    obtain ⟨taken', hrest⟩ := ih (assignMemberIds (functionIdBase ns.name) (assignTypeIds ns.name taken ns.types).2
      ns.functions).2
    exact ⟨taken', (htypes.append hfunctions).append hrest⟩

theorem assignNamespaceIds_withoutIds :
    assignNamespaceIds taken (nss.map Namespace.withoutIds) = assignNamespaceIds taken nss := by
  induction nss generalizing taken with
  | nil => rfl
  | cons ns nss ih =>
    simp only [List.map_cons, assignNamespaceIds, Namespace.withoutIds, assignTypeIds_withoutIds,
      assignMemberIds_withoutId (ignoresId_functionIdBase _), ih]

theorem withoutIds_assignNamespaceIds :
    (assignNamespaceIds taken nss).map Namespace.withoutIds = nss.map Namespace.withoutIds := by
  induction nss generalizing taken with
  | nil => rfl
  | cons ns nss ih =>
    simp only [assignNamespaceIds, List.map_cons, ih, Namespace.withoutIds, withoutIds_assignTypeIds,
      withoutId_assignMemberIds]

end Namespaces

theorem exists_given_of_mem {nss : List Namespace} {base : String} {id : Option String}
    (hitem : (base, id) ∈ idItems (assignIds nss)) : ∃ suffix, id = some (base ++ suffix) := by
  obtain ⟨taken, hallots⟩ := allots_assignNamespaceIds [] nss
  obtain ⟨before, after, heq⟩ := List.append_of_mem hitem
  rw [assignIds] at heq
  rw [heq] at hallots
  obtain ⟨given, rfl, hfree⟩ := hallots.firstFree_at
  obtain ⟨suffix, rfl⟩ := hfree.exists_eq_append
  exact ⟨suffix, rfl⟩

theorem memberIdBase_eq_append (typeId : String) (m : Member) :
    ∃ rest, memberIdBase typeId m = typeId ++ "." ++ rest := by
  unfold memberIdBase
  split
  . exact ⟨m.name ++ "(" ++ paramTypes m ++ ")", by simp only [String.append_assoc]⟩
  . exact ⟨m.name, rfl⟩

theorem exists_memberId {nss : List Namespace} {ns : Namespace} {t : TypeEntry} {m : Member} (hns : ns ∈ assignIds nss)
    (ht : t ∈ ns.types) (hm : m ∈ t.members) :
    ∃ typeId rest, t.id = some typeId ∧ m.id = some (typeId ++ "." ++ rest) := by
  have hitems : ∀ item ∈ t.idItems ns.name, item ∈ idItems (assignIds nss) := by
    intro item hitem
    refine List.mem_flatMap.mpr ⟨ns, hns, ?_⟩
    exact List.mem_append_left _ (List.mem_flatMap.mpr ⟨t, ht, hitem⟩)
  obtain ⟨suffix, htype⟩ := exists_given_of_mem (hitems _ List.mem_cons_self)
  obtain ⟨suffix', hmember⟩ := exists_given_of_mem (hitems _ (List.mem_cons_of_mem _ (List.mem_map_of_mem hm)))
  rw [htype, Option.getD_some] at hmember
  obtain ⟨rest, hbase⟩ := memberIdBase_eq_append (qualify ns.name t.name ++ suffix) m
  refine ⟨_, rest ++ suffix', htype, ?_⟩
  rw [hmember, hbase, String.append_assoc]

theorem assignIds_firstFree (nss : List Namespace) :
    (∀ item ∈ idItems (assignIds nss), item.2.isSome = true) ∧
    ((idItems (assignIds nss)).map (·.2)).Nodup ∧
    (∀ ns ∈ assignIds nss, ∀ t ∈ ns.types, ∀ m ∈ t.members,
      ∃ typeId rest, t.id = some typeId ∧ m.id = some (typeId ++ "." ++ rest)) ∧
    (∀ before base id after, idItems (assignIds nss) = before ++ (base, id) :: after →
      ∃ given, id = some given ∧ FirstFree (before.filterMap (·.2)) base given) ∧
    (assignIds nss).map Namespace.withoutIds = nss.map Namespace.withoutIds ∧
    assignIds (assignIds nss) = assignIds nss := by
  obtain ⟨taken, hallots⟩ := allots_assignNamespaceIds [] nss
  have hrest : (assignIds nss).map Namespace.withoutIds = nss.map Namespace.withoutIds :=
    withoutIds_assignNamespaceIds [] nss
  refine ⟨?_, ?_, ?_, ?_, hrest, ?_⟩
  . rintro ⟨base, id⟩ hitem
    obtain ⟨suffix, rfl⟩ := exists_given_of_mem hitem
    rfl
  . have hnodup := hallots.nodup_ids List.nodup_nil
    rw [List.append_nil] at hnodup
    rw [assignIds, hallots.ids_eq]
    apply hnodup.map
    intro a b hab
    exact Option.some.inj hab
  . intro ns hns t ht m hm
    exact exists_memberId hns ht hm
  . intro before base id after heq
    rw [assignIds] at heq
    rw [heq] at hallots
    simpa using hallots.firstFree_at
  . calc
      assignIds (assignIds nss) = assignIds ((assignIds nss).map Namespace.withoutIds) :=
        (assignNamespaceIds_withoutIds [] _).symm
      _ = assignIds (nss.map Namespace.withoutIds) := by rw [hrest]
      _ = assignIds nss := assignNamespaceIds_withoutIds [] nss

/--
Two types whose ids clash, two fields whose ids clash, one of them with a field that is named like a numbered id, two
overloads with the same parameter types, and a function whose id clashes with that of a method.
-/
def clashing : List Namespace := [
  { name := "a", types := [
    { name := "b.C", kind := .struct, members := [
      { name := "x#2", kind := .field }, { name := "x", kind := .field }, { name := "x", kind := .field }] },
    { name := "b", kind := .struct, members := [{ name := "close", kind := .method }] }] },
  { name := "a.b", types := [{ name := "C", kind := .struct }], functions := [
    { name := "open", kind := .method, params := [{ type := "Map<str, int>" }, { type := "int" }] },
    { name := "open", kind := .method, params := [{ type := "str" }] },
    { name := "open", kind := .method, params := [{ type := "Map<str,int>" }, { type := "int" }] },
    { name := "close", kind := .method }] }]

theorem clashing_ids :
    ((idItems (assignIds clashing)).map (·.2)).Nodup ∧
    FirstFree ["a.b.C", "a.b.C.x#2", "a.b.C.x"] "a.b.C.x" "a.b.C.x#3" ∧
    FirstFree ["a.b.C", "a.b.C.x#2", "a.b.C.x", "a.b.C.x#3", "a.b", "a.b.close()"] "a.b.C" "a.b.C#2" ∧
    FirstFree ["a.b.C", "a.b.C.x#2", "a.b.C.x", "a.b.C.x#3", "a.b", "a.b.close()", "a.b.C#2",
      "a.b.open(Map<str,int>,int)", "a.b.open(str)"] "a.b.open(Map<str,int>,int)" "a.b.open(Map<str,int>,int)#2" ∧
    FirstFree ["a.b.C", "a.b.C.x#2", "a.b.C.x", "a.b.C.x#3", "a.b", "a.b.close()", "a.b.C#2",
      "a.b.open(Map<str,int>,int)", "a.b.open(str)", "a.b.open(Map<str,int>,int)#2"] "a.b.close()" "a.b.close()#2" := by
  obtain ⟨-, hnodup, -, hfirst, -⟩ := assignIds_firstFree clashing
  have hitems : idItems (assignIds clashing) = [
      ("a.b.C", some "a.b.C"), ("a.b.C.x#2", some "a.b.C.x#2"), ("a.b.C.x", some "a.b.C.x"),
      ("a.b.C.x", some "a.b.C.x#3"), ("a.b", some "a.b"), ("a.b.close()", some "a.b.close()"),
      ("a.b.C", some "a.b.C#2"), ("a.b.open(Map<str,int>,int)", some "a.b.open(Map<str,int>,int)"),
      ("a.b.open(str)", some "a.b.open(str)"),
      ("a.b.open(Map<str,int>,int)", some "a.b.open(Map<str,int>,int)#2"),
      ("a.b.close()", some "a.b.close()#2")] := by decide +kernel
  have hfree : ∀ k base given, (idItems (assignIds clashing))[k]? = some (base, some given) →
      FirstFree (((idItems (assignIds clashing)).take k).filterMap (·.2)) base given := by
    intro k base given hk
    obtain ⟨hlt, hget⟩ := List.getElem?_eq_some_iff.mp hk
    have hsplit := List.take_append_drop k (idItems (assignIds clashing))
    rw [List.drop_eq_getElem_cons hlt, hget] at hsplit
    obtain ⟨_, hid, hfree⟩ := hfirst _ _ _ _ hsplit.symm
    cases hid
    exact hfree
  rw [hitems] at hfree
  refine ⟨hnodup, ?_, ?_, ?_, ?_⟩
  . exact hfree 3 _ _ rfl
  . exact hfree 6 _ _ rfl
  . exact hfree 9 _ _ rfl
  . exact hfree 10 _ _ rfl

end ApiSurface
