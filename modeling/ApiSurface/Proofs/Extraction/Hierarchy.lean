import Mathlib.Data.List.Forall2
import ApiSurface.Extraction.Hierarchy
import ApiSurface.Proofs.Extraction.ErrorSearch
import ApiSurface.Proofs.Lists
import ApiSurface.Python.Conventions

/-!
This module contains the theory of dividing parents into a base and interfaces. The division takes the base out at the
place where the first parent stands that is no interface, and keeps the others in their order. What counts as an
interface depends on names and kinds alone, and the division changes neither; so it can be done again without effect.
-/

namespace ApiSurface

open Text

section DivideParents

variable {isInterface : String → Bool} {allowBase : Bool} {parents before after : List String} {b : String}

theorem divideParents_of_none (h : allowBase = true → ∀ p ∈ parents, isInterface p = true) :
    divideParents isInterface allowBase parents = (none, parents.eraseDups) := by
  have hbase : (if allowBase then parents.find? (fun p => !isInterface p) else none) = none := by
    cases allowBase with
    | false => rfl
    | true =>
      rw [if_pos rfl, List.find?_eq_none]
      intro p hp
      simp [h rfl p hp]
  unfold divideParents
  rw [hbase]

theorem divideParents_of_base (hbefore : ∀ p ∈ before, isInterface p = true) (hb : isInterface b = false) :
    divideParents isInterface true (before ++ b :: after) = (some b, (before ++ after).eraseDups) := by
  have hbase : (before ++ b :: after).find? (fun p => !isInterface p) = some b := by
    rw [List.find?_eq_some_iff_append]
    refine ⟨by simp [hb], before, after, rfl, ?_⟩
    intro p hp
    simp [hbefore p hp]
  have hrest : (before ++ b :: after).eraseP (fun p => p == b && !isInterface p) = before ++ after := by
    rw [List.eraseP_append_right _ (fun p hp => by simp [hbefore p hp]), List.eraseP_cons_of_pos (by simp [hb])]
  unfold divideParents
  rw [if_pos rfl, hbase]
  dsimp only
  rw [hrest]

/--
Either there is no base to take, or there is a first parent that is no interface.
-/
theorem exists_division (isInterface : String → Bool) (allowBase : Bool) (parents : List String) :
    (allowBase = true → ∀ p ∈ parents, isInterface p = true) ∨
    (allowBase = true ∧ ∃ before b after,
      parents = before ++ b :: after ∧ (∀ p ∈ before, isInterface p = true) ∧ isInterface b = false) := by
  cases allowBase with
  | false => simp
  | true =>
    cases hfind : parents.find? (fun p => !isInterface p) with
    | none =>
      left
      intro _ p hp
      simpa using List.find?_eq_none.mp hfind p hp
    | some b =>
      right
      obtain ⟨hb, before, after, hparents, hbefore⟩ := List.find?_eq_some_iff_append.mp hfind
      exact ⟨rfl, before, b, after, hparents, by simpa using hbefore, by simpa using hb⟩

theorem divideParents_again :
    divideParents isInterface allowBase
        ((divideParents isInterface allowBase parents).1.toList ++ (divideParents isInterface allowBase parents).2)
      =
    divideParents isInterface allowBase parents := by
  rcases exists_division isInterface allowBase parents with hnone | ⟨rfl, before, b, after, rfl, hbefore, hb⟩
  . rw [divideParents_of_none hnone, Option.toList_none, List.nil_append, divideParents_of_none, eraseDups_eraseDups]
    intro hallow p hp
    exact hnone hallow p (List.mem_eraseDups.mp hp)
  . -- the base stands in front now, where it is the first again
    rw [divideParents_of_base hbefore hb, Option.toList_some, List.singleton_append]
    have hagain :
        divideParents isInterface true ([] ++ b :: (before ++ after).eraseDups)
          =
        (some b, ([] ++ (before ++ after).eraseDups).eraseDups) := by
      apply divideParents_of_base _ hb
      simp
    rw [List.nil_append, List.nil_append] at hagain
    rw [hagain, eraseDups_eraseDups]

end DivideParents

/--
A parent is taken for an interface: the first local type that it denotes is one, or it denotes none and the language
takes it for one.
-/
def TakenForInterface (c : Conventions) (nss : List Namespace) (imports : List (String × List Import))
    (source : TypeKey) (parent : String) : Prop :=
  match (Hierarchy.ofNamespaces nss imports).resolve source parent with
  | [] => c.externalParentIsInterface parent = true
  | first :: _ => ∃ t, (first, t) ∈ declarations nss ∧ t.kind = .interface

/--
The type `divided` is the type `t` with its parents divided. Where there is a base, it was the first parent that is no
interface, and the interfaces are what is left without it.
-/
structure Divides (isInterface : String → Prop) (t divided : TypeEntry) : Prop where
  frame : { divided with base := t.base, interfaces := t.interfaces } = t
  mem_parents_iff : ∀ p, p ∈ divided.parents ↔ p ∈ t.parents
  no_base_of_interface : t.kind = .interface → divided.base = none
  without_base : divided.base = none →
    (t.kind ≠ .interface → ∀ p ∈ t.parents, isInterface p) ∧ divided.interfaces = firstOfEach id t.parents
  with_base : ∀ b, divided.base = some b → ∃ before after,
    t.parents = before ++ b :: after ∧ (∀ p ∈ before, isInterface p) ∧ ¬ isInterface b ∧
      divided.interfaces = firstOfEach id (before ++ after)
  nodup_interfaces : divided.interfaces.Nodup

section KindOf

variable {nss : List Namespace} {imports : List (String × List Import)} {key : TypeKey} {t : TypeEntry}

theorem kindOf?_eq_getLast? (nss : List Namespace) (key : TypeKey) :
    kindOf? nss key
      =
    ((declarations nss).filterMap fun d => if key == d.1 then some d.2.kind else none).getLast? := by
  simp [kindOf?, declarations, List.filterMap_flatMap, List.filterMap_map]

theorem kindOf?_eq_some (hdistinct : ((declarations nss).map (·.1)).Nodup) (h : (key, t) ∈ declarations nss) :
    kindOf? nss key = some t.kind := by
  rw [kindOf?_eq_getLast?]
  have hmem : t.kind ∈ (declarations nss).filterMap (fun d => if key == d.1 then some d.2.kind else none) :=
    List.mem_filterMap.mpr ⟨(key, t), h, by simp⟩
  have hne := List.ne_nil_of_mem hmem
  rw [List.getLast?_eq_some_getLast hne]
  obtain ⟨d, hd, hkind⟩ := List.mem_filterMap.mp (List.getLast_mem hne)
  rw [Option.ite_none_right_eq_some, beq_iff_eq] at hkind
  have hsame : d = (key, t) := List.inj_on_of_nodup_map hdistinct hd h hkind.1.symm
  rw [← hkind.2, hsame]

theorem parentIsInterface_iff (c : Conventions) (hdistinct : ((declarations nss).map (·.1)).Nodup) (source : TypeKey)
    (parent : String) :
    parentIsInterface c (Hierarchy.ofNamespaces nss imports) nss source parent = true
      ↔
    TakenForInterface c nss imports source parent := by
  unfold parentIsInterface TakenForInterface
  cases hresolve : (Hierarchy.ofNamespaces nss imports).resolve source parent with
  | nil => rfl
  | cons first rest =>
    have hfirst : first ∈ typeKeys nss :=
      Hierarchy.mem_typeKeys_of_mem_resolve (hresolve ▸ List.mem_cons_self)
    obtain ⟨t, ht⟩ := mem_typeKeys.mp hfirst
    rw [List.head?_cons, Option.bind_some, kindOf?_eq_some hdistinct ht]
    constructor
    . intro hkind
      exact ⟨t, ht, beq_iff_eq.mp hkind⟩
    . rintro ⟨t', ht', hkind⟩
      have hsame := kindOf?_eq_some hdistinct ht'
      rw [kindOf?_eq_some hdistinct ht, Option.some.injEq] at hsame
      dsimp only
      rw [hsame, hkind, beq_self_eq_true]

end KindOf

/--
The type with its parents divided.
-/
def TypeEntry.divide (t : TypeEntry) (isInterface : String → Bool) : TypeEntry :=
  let (base, interfaces) := divideParents isInterface (t.kind != .interface) t.parents
  { t with base := base, interfaces := interfaces }

namespace TypeEntry

variable {t : TypeEntry} {isInterface : String → Bool}

theorem parents_divide :
    (t.divide isInterface).parents
      =
    (divideParents isInterface (t.kind != .interface) t.parents).1.toList ++
      (divideParents isInterface (t.kind != .interface) t.parents).2 :=
  rfl

theorem divide_divide : (t.divide isInterface).divide isInterface = t.divide isInterface := by
  have hagain : divideParents isInterface (t.kind != .interface) (t.divide isInterface).parents
      = divideParents isInterface (t.kind != .interface) t.parents := by
    rw [parents_divide, divideParents_again]
  calc (t.divide isInterface).divide isInterface
      = { t with
          base := (divideParents isInterface (t.kind != .interface) (t.divide isInterface).parents).1
          interfaces := (divideParents isInterface (t.kind != .interface) (t.divide isInterface).parents).2 } := rfl
    _ = t.divide isInterface := by rw [hagain]; rfl

theorem divides_divide {P : String → Prop} (hP : ∀ p, isInterface p = true ↔ P p) :
    Divides P t (t.divide isInterface) := by
  have hnot : ∀ p, isInterface p = false ↔ ¬ P p := by
    intro p
    rw [← hP p, Bool.not_eq_true]
  unfold divide
  rcases exists_division isInterface (t.kind != .interface) t.parents with
    hnone | ⟨hallow, before, b, after, hparents, hbefore, hb⟩
  . rw [divideParents_of_none hnone]
    refine ⟨rfl, ?_, fun _ => rfl, fun _ => ⟨?_, eraseDups_eq_firstOfEach _⟩, ?_, Distinct.nodup_eraseDups _⟩
    . intro p
      exact List.mem_eraseDups
    . intro hkind p hp
      exact (hP p).mp (hnone (bne_iff_ne.mpr hkind) p hp)
    . intro b hb
      simp at hb
  . rw [hallow, hparents, divideParents_of_base hbefore hb]
    refine ⟨rfl, ?_, ?_, ?_, ?_, Distinct.nodup_eraseDups _⟩
    . intro p
      rw [hparents]
      simp only [parents, Option.toList_some, List.singleton_append, List.mem_cons, List.mem_eraseDups,
        List.mem_append]
      tauto
    . intro hkind
      exact absurd hkind (bne_iff_ne.mp hallow)
    . intro hbase
      simp at hbase
    . intro b' hbase
      obtain rfl : b = b' := Option.some.inj hbase
      refine ⟨before, after, hparents, ?_, (hnot b).mp hb, eraseDups_eq_firstOfEach _⟩
      intro p hp
      exact (hP p).mp (hbefore p hp)

end TypeEntry

section ClassifyParents

variable {c : Conventions} {nss : List Namespace} {imports : List (String × List Import)}

theorem classifyParents_eq (hexplicit : c.parentsAreExplicit = false) :
    classifyParents c nss imports
      =
    nss.map fun ns =>
      { ns with types := ns.types.map fun t =>
          t.divide (parentIsInterface c (Hierarchy.ofNamespaces nss imports) nss ⟨ns.name, t.name⟩) } := by
  unfold classifyParents
  rw [hexplicit]
  rfl

theorem declarations_classifyParents (hexplicit : c.parentsAreExplicit = false) :
    declarations (classifyParents c nss imports)
      =
    (declarations nss).map fun d =>
      (d.1, d.2.divide (parentIsInterface c (Hierarchy.ofNamespaces nss imports) nss d.1)) := by
  rw [classifyParents_eq hexplicit]
  unfold declarations
  simp only [List.flatMap_map, List.map_flatMap, List.map_map]
  rfl

theorem ofNamespaces_classifyParents (hexplicit : c.parentsAreExplicit = false) :
    Hierarchy.ofNamespaces (classifyParents c nss imports) imports = Hierarchy.ofNamespaces nss imports := by
  have hnames : (classifyParents c nss imports).map (·.name) = nss.map (·.name) := by
    rw [classifyParents_eq hexplicit, List.map_map]
    rfl
  have hkeys : (TypeTable.ofNamespaces (classifyParents c nss imports)).keys = (TypeTable.ofNamespaces nss).keys := by
    rw [keys_ofNamespaces_eq, keys_ofNamespaces_eq, declarations_classifyParents hexplicit, List.map_map]
    rfl
  unfold Hierarchy.ofNamespaces
  congr 1
  unfold TypeTable.ofNamespaces at hkeys ⊢
  rw [hnames]
  congr 1

theorem kindOf?_classifyParents (hexplicit : c.parentsAreExplicit = false) :
    kindOf? (classifyParents c nss imports) = kindOf? nss := by
  funext key
  rw [kindOf?_eq_getLast?, kindOf?_eq_getLast?, declarations_classifyParents hexplicit, List.filterMap_map]
  rfl

theorem parentIsInterface_classifyParents (hexplicit : c.parentsAreExplicit = false) :
    parentIsInterface c (Hierarchy.ofNamespaces (classifyParents c nss imports) imports)
        (classifyParents c nss imports)
      =
    parentIsInterface c (Hierarchy.ofNamespaces nss imports) nss := by
  funext source parent
  unfold parentIsInterface
  rw [ofNamespaces_classifyParents hexplicit, kindOf?_classifyParents hexplicit]

theorem classifyParents_classifyParents (hexplicit : c.parentsAreExplicit = false) :
    classifyParents c (classifyParents c nss imports) imports = classifyParents c nss imports := by
  refine (classifyParents_eq hexplicit).trans ?_
  rw [parentIsInterface_classifyParents hexplicit, classifyParents_eq hexplicit]
  simp only [List.map_map]
  congr 1
  funext ns
  simp only [Function.comp_apply, List.map_map]
  congr 2
  funext t
  exact TypeEntry.divide_divide

end ClassifyParents

theorem classifyParents_divides_and_idempotent (c : Conventions) (nss : List Namespace)
    (imports : List (String × List Import)) (hexplicit : c.parentsAreExplicit = false)
    (hdistinct : ((declarations nss).map (·.1)).Nodup) :
    List.Forall₂
      (fun ns classified =>
        { classified with types := ns.types } = ns ∧
        List.Forall₂ (fun t divided => Divides (TakenForInterface c nss imports ⟨ns.name, t.name⟩) t divided)
          ns.types classified.types)
      nss (classifyParents c nss imports) ∧
    classifyParents c (classifyParents c nss imports) imports = classifyParents c nss imports := by
  refine ⟨?_, classifyParents_classifyParents hexplicit⟩
  rw [classifyParents_eq hexplicit, List.forall₂_map_right_iff, List.forall₂_same]
  intro ns _
  refine ⟨rfl, ?_⟩
  rw [List.forall₂_map_right_iff, List.forall₂_same]
  intro t _
  exact TypeEntry.divides_divide (parentIsInterface_iff c hdistinct _)

namespace Shelf

def readable : TypeEntry := { name := "Readable", kind := .interface }

def stored : TypeEntry := { name := "Stored", kind := .classType }

/--
A type with two parents of its own namespace, one of them named twice, and two from elsewhere.
-/
def file : TypeEntry :=
  { name := "File", kind := .classType, base := some "Readable"
    interfaces := ["typing.Protocol", "Stored", "Readable", "mixins.Locked"] }

/--
The type with its parents divided.
-/
def classifiedFile : TypeEntry :=
  { name := "File", kind := .classType, base := some "Stored"
    interfaces := ["Readable", "typing.Protocol", "mixins.Locked"] }

/--
A namespace with these types.
-/
def namespaces (file : TypeEntry) : List Namespace :=
  [{ name := "shelf", types := [readable, stored, file] }]

theorem classifyParents_eq_classified :
    classifyParents Python.conventions (namespaces file) [] = namespaces classifiedFile := by
  decide +kernel

theorem file_divided :
    Python.conventions.parentsAreExplicit = false ∧
    ((declarations (namespaces file)).map (·.1)).Nodup ∧
    Divides (TakenForInterface Python.conventions (namespaces file) [] ⟨"shelf", "File"⟩) file classifiedFile ∧
    classifyParents Python.conventions (namespaces classifiedFile) [] = namespaces classifiedFile := by
  have hdistinct : ((declarations (namespaces file)).map (·.1)).Nodup := by decide
  obtain ⟨hdivided, hagain⟩ :=
    classifyParents_divides_and_idempotent Python.conventions (namespaces file) [] rfl hdistinct
  rw [classifyParents_eq_classified] at hdivided hagain
  refine ⟨rfl, hdistinct, ?_, hagain⟩
  cases hdivided with
  | cons hns _ =>
    cases hns.2 with
    | cons _ hlater =>
      cases hlater with
      | cons _ hlater =>
        cases hlater with
        | cons hfile _ => exact hfile

end Shelf

end ApiSurface
