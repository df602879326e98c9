import Mathlib.Algebra.BigOperators.Group.List.Basic
import Mathlib.Algebra.GroupWithZero.Nat
import Mathlib.Data.List.Induction
import Mathlib.Data.List.Nodup
import ApiSurface.Go.Extractor
import ApiSurface.Proofs.Text.Name

/-!
This module contains proofs about the constructors of Go types. A function that constructs a type of its package is moved
to that type; nothing is lost by that, and all orders are kept.
-/

namespace ApiSurface.Go

section TypeBase

open Text

variable {p : Char → Bool} {c : Char} {xs ys : List Char}

theorem dropBack_append_cons (h : p c = false) : dropBack p (xs ++ c :: ys) = xs ++ c :: dropBack p ys := by
  unfold dropBack
  rw [List.reverse_append, List.reverse_cons, List.append_assoc, List.singleton_append, List.dropWhile_append,
    List.dropWhile_cons_of_neg (by simpa using h)]
  split
  next hempty => simp [List.isEmpty_iff.mp hempty]
  next => simp

theorem head?_splitChars_append (h : ∀ x ∈ xs, p x = false) (hc : p c = true) :
    (splitChars p (xs ++ c :: ys)).head? = some xs := by
  induction xs with
  | nil =>
    rw [List.nil_append, splitChars]
    split
    next hnil => exact absurd hnil (splitChars_ne_nil p ys)
    next => simp [hc]
  | cons x xs ih =>
    rw [List.forall_mem_cons] at h
    rw [List.cons_append, splitChars]
    split
    next hnil => exact absurd hnil (splitChars_ne_nil p (xs ++ c :: ys))
    next part parts hparts =>
      have hpart := ih h.2
      rw [hparts, List.head?_cons, Option.some.injEq] at hpart
      simp [h.1, hpart]

/--
The type arguments of a type: there are none, or they are in brackets.
-/
def IsArguments (args : List Char) : Prop :=
  args = [] ∨ ∃ rest, args = '[' :: rest

theorem dropFront_append_of_head {rest : List Char} (hpre : ∀ x ∈ xs, p x = true) (hys : ∀ x ∈ ys, p x = false)
    (hne : ys ≠ []) : dropFront p (xs ++ (ys ++ rest)) = ys ++ rest := by
  unfold dropFront
  rw [List.dropWhile_append_of_pos hpre]
  cases ys with
  | nil => contradiction
  | cons y ys =>
    have hy : p y = false := hys y List.mem_cons_self
    rw [List.cons_append, List.dropWhile_cons_of_neg (by simpa using hy)]

theorem trimChars_named {xs base args : List Char} (hxs : ∀ c ∈ xs, isBlank c = false)
    (hbase : ∀ c ∈ base, isBlank c = false) (hne : base ≠ []) (hargs : IsArguments args) :
    ∃ args', IsArguments args' ∧ trimChars (xs ++ (base ++ args)) = xs ++ (base ++ args') := by
  have hname : ∀ c ∈ xs ++ base, isBlank c = false := by
    intro c hc
    exact (List.mem_append.mp hc).elim (hxs c) (hbase c)
  have hfront : dropFront isBlank (xs ++ (base ++ args)) = xs ++ base ++ args := by
    rw [← List.append_assoc, ← List.nil_append (xs ++ base ++ args)]
    exact dropFront_append_of_head (by simp) hname (by simp [hne])
  unfold trimChars
  rw [hfront]
  rcases hargs with rfl | ⟨rest, rfl⟩
  . refine ⟨[], Or.inl rfl, ?_⟩
    rw [List.append_nil, List.append_nil, dropBack_eq_self hname]
  . refine ⟨'[' :: dropBack isBlank rest, Or.inr ⟨_, rfl⟩, ?_⟩
    rw [dropBack_append_cons (by decide), List.append_assoc]

theorem firstPart_named {base args : List Char} (hbase : ∀ c ∈ base, c ≠ '[') (hargs : IsArguments args) :
    firstPart '[' (String.ofList (base ++ args)) = String.ofList base := by
  have hother : ∀ c ∈ base, (c == '[') = false := by simpa using hbase
  unfold firstPart splitBy
  rw [String.toList_ofList, List.head?_map]
  rcases hargs with rfl | ⟨rest, rfl⟩
  . rw [List.append_nil, splitChars_of_not hother]
    rfl
  . rw [head?_splitChars_append hother (by simp)]
    rfl

/--
Of a pointer to an instance of a type, however often pointed to, what is left is the name of the type.
-/
theorem typeBase_written {base args : List Char} (stars : Nat)
    (hbase : ∀ c ∈ base, isBlank c = false ∧ c ≠ '*' ∧ c ≠ '[') (hne : base ≠ []) (hargs : IsArguments args) :
    typeBase (String.ofList (List.replicate stars '*' ++ (base ++ args))) = String.ofList base := by
  have hstars : ∀ c ∈ List.replicate stars '*', c = '*' := fun c hc => List.eq_of_mem_replicate hc
  have hblank : ∀ c ∈ base, isBlank c = false := fun c hc => (hbase c hc).1
  obtain ⟨args', hargs', htrim⟩ := trimChars_named (fun c hc => hstars c hc ▸ by decide) hblank hne hargs
  have hname : dropFront (· == '*') (List.replicate stars '*' ++ (base ++ args')) = base ++ args' := by
    apply dropFront_append_of_head _ _ hne
    . simp
    . intro c hc
      exact beq_eq_false_iff_ne.mpr (hbase c hc).2.1
  unfold typeBase trim trimStartWhile
  simp only [String.toList_ofList, htrim, hname]
  rw [firstPart_named (fun c hc => (hbase c hc).2.2) hargs', String.toList_ofList, trimChars, dropFront_eq_self hblank,
    dropBack_eq_self hblank]

end TypeBase

/--
A function constructs the type of a name: its own name begins with `New`, and its first result is that type, a pointer to
it, or an instance of it.
-/
def Constructs (f : Member) (name : String) : Prop :=
  f.name.startsWith "New" = true ∧ ∃ first ∈ f.results.head?, typeBase first.type = name

instance (f : Member) (name : String) : Decidable (Constructs f name) :=
  inferInstanceAs (Decidable (_ ∧ ∃ first ∈ f.results.head?, _))

/--
A function as the constructor of a type.
-/
def asConstructor (f : Member) : Member :=
  { f with kind := .constructor, isStatic := true }

/--
The constructors of a type among some functions, in their order.
-/
def constructorsOf (name : String) (fs : List Member) : List Member :=
  (fs.filter (Constructs · name)).map asConstructor

/--
The functions that construct none of the types of some names, in their order.
-/
def freeFunctions (names : List String) (fs : List Member) : List Member :=
  fs.filter fun f => ∀ name ∈ names, ¬ Constructs f name

/--
A package in which every type has its constructors in front of its other members, named types with values are
enumerations, and the types of the main package are entry points.
-/
def settled (info : PackageInfo) (ns : Namespace) : Namespace :=
  { ns with
    types := ns.types.map fun t =>
      { t with
        kind := if t.kind = .aliasType ∧ t.values ≠ [] then .enum else t.kind
        entryPoint := if ns.name = info.name then true else t.entryPoint
        members := constructorsOf t.name ns.functions ++ t.members }
    functions := freeFunctions (ns.types.map (·.name)) ns.functions }

variable {f : Member} {fs : List Member} {name name' : String} {names : List String} {types : List TypeEntry}

theorem Constructs.name_eq (h : Constructs f name) (h' : Constructs f name') : name = name' := by
  obtain ⟨-, first, hfirst, rfl⟩ := h
  obtain ⟨-, first', hfirst', rfl⟩ := h'
  obtain rfl := Option.mem_unique hfirst hfirst'
  rfl

theorem constructedType?_eq_some_iff :
    constructedType? types f = some name ↔ Constructs f name ∧ name ∈ types.map (·.name) := by
  unfold constructedType? Constructs
  cases f.name.startsWith "New" with
  | false => simp
  | true =>
    cases f.results with
    | nil => simp
    | cons first rest =>
      simp only [Bool.not_true, Bool.false_eq_true, if_false, List.any_eq_true, beq_iff_eq, Option.ite_none_right_eq_some,
        Option.some.injEq, true_and, List.head?_cons, Option.mem_some, exists_eq_left', List.mem_map]
      constructor
      . rintro ⟨hlocal, rfl⟩
        exact ⟨rfl, hlocal⟩
      . rintro ⟨rfl, hlocal⟩
        exact ⟨hlocal, rfl⟩

theorem constructedType?_eq_none_iff :
    constructedType? types f = none ↔ ∀ name ∈ types.map (·.name), ¬ Constructs f name := by
  rw [Option.eq_none_iff_forall_ne_some]
  simp only [ne_eq, constructedType?_eq_some_iff, not_and']

section Groups

theorem kind_of_mem_constructorsOf {m : Member} (h : m ∈ constructorsOf name fs) : m.kind = .constructor := by
  obtain ⟨f, -, rfl⟩ := List.mem_map.mp h
  rfl

theorem constructorsOf_append (fs fs' : List Member) :
    constructorsOf name (fs ++ fs') = constructorsOf name fs ++ constructorsOf name fs' := by
  unfold constructorsOf
  rw [List.filter_append, List.map_append]

theorem insertConstructor_append {ctors rest : List Member} (hctors : ∀ m ∈ ctors, m.kind = .constructor)
    (hrest : ∀ m ∈ rest, m.kind ≠ .constructor) (ctor : Member) :
    insertConstructor (ctors ++ rest) ctor = ctors ++ ctor :: rest := by
  have hctors' : ∀ m ∈ ctors, (m.kind == .constructor) = true := by simpa using hctors
  unfold insertConstructor
  dsimp only
  rw [List.takeWhile_append_of_pos hctors', List.dropWhile_append_of_pos hctors']
  cases rest with
  | nil => simp
  | cons m rest =>
    have hm : (m.kind == .constructor) = false := by simpa using hrest m List.mem_cons_self
    simp [hm]

/--
With distinct names, the first type of a name is the only one.
-/
theorem giveConstructor_eq_map (h : (types.map (·.name)).Nodup) (ctor : Member) :
    giveConstructor name ctor types =
      types.map fun t => if t.name = name then { t with members := insertConstructor t.members ctor } else t := by
  induction types with
  | nil => rfl
  | cons t types ih =>
    rw [List.map_cons, List.nodup_cons] at h
    rw [giveConstructor, List.map_cons, ih h.2]
    by_cases hname : t.name = name
    . have hrest : ∀ t' ∈ types, t'.name ≠ name := by
        rintro t' ht' rfl
        exact h.1 (hname ▸ List.mem_map_of_mem ht')
      rw [if_pos (beq_iff_eq.mpr hname), if_pos hname, List.map_congr_left (g := id), List.map_id]
      intro t' ht'
      exact if_neg (hrest t' ht')
    . rw [if_neg (by simpa using hname), if_neg hname]

variable (h : (types.map (·.name)).Nodup) (hkinds : ∀ t ∈ types, ∀ m ∈ t.members, m.kind ≠ .constructor)

include h hkinds in
/--
What the types have after some functions were given out: their constructors among those, in front of what they had.
-/
theorem foldl_giveConstructor (fs : List Member) :
    fs.foldl
        (fun ts f =>
          match constructedType? types f with
          | some name => giveConstructor name (asConstructor f) ts
          | none => ts)
        types =
      types.map fun t => { t with members := constructorsOf t.name fs ++ t.members } := by
  induction fs using List.reverseRecOn with
  | nil => simp [constructorsOf]
  | append_singleton fs f ih =>
    rw [List.foldl_append, ih, List.foldl_cons, List.foldl_nil]
    cases hname : constructedType? types f with
    | none =>
      rw [constructedType?_eq_none_iff, List.forall_mem_map] at hname
      apply List.map_congr_left
      intro t ht
      rw [constructorsOf_append]
      simp [constructorsOf, hname t ht]
    | some name =>
      rw [constructedType?_eq_some_iff] at hname
      dsimp only
      -- what was given out before left the names as they are, so they are still distinct
      rw [giveConstructor_eq_map (by simpa [Function.comp_def] using h), List.map_map]
      apply List.map_congr_left
      intro t ht
      rw [Function.comp_apply, constructorsOf_append]
      by_cases htname : t.name = name
      . obtain rfl := htname
        rw [if_pos rfl, insertConstructor_append (fun m => kind_of_mem_constructorsOf) (hkinds t ht)]
        simp [constructorsOf, hname.1]
      . have hnot : ¬ Constructs f t.name := fun hf => htname (hf.name_eq hname.1)
        rw [if_neg htname]
        simp [constructorsOf, hnot]

end Groups

section Count

theorem freeFunctions_cons (name : String) (names : List String) (fs : List Member) :
    freeFunctions (name :: names) fs = (freeFunctions names fs).filter (¬ Constructs · name) := by
  unfold freeFunctions
  rw [List.filter_filter]
  apply List.filter_congr
  intro f _
  simp

/--
What constructs a type constructs none of another name.
-/
theorem constructorsOf_freeFunctions (h : name ∉ names) (fs : List Member) :
    constructorsOf name (freeFunctions names fs) = constructorsOf name fs := by
  unfold constructorsOf freeFunctions
  rw [List.filter_filter]
  congr 1
  apply List.filter_congr
  intro f _
  by_cases hf : Constructs f name
  . have hnone : ∀ name' ∈ names, ¬ Constructs f name' := by
      intro name' hname' hf'
      exact h (hf.name_eq hf' ▸ hname')
    simpa [hf] using hnone
  . simp [hf]

theorem length_constructorsOf_add (h : name ∉ names) (fs : List Member) :
    (constructorsOf name fs).length + (freeFunctions (name :: names) fs).length =
      (freeFunctions names fs).length := by
  rw [freeFunctions_cons, ← constructorsOf_freeFunctions h, constructorsOf, List.length_map,
    List.length_eq_length_filter_add (l := freeFunctions names fs) (Constructs · name)]
  simp

/--
Every function is a constructor of one type or stays free.
-/
theorem sum_length_constructorsOf (h : names.Nodup) (fs : List Member) :
    (names.map fun name => (constructorsOf name fs).length).sum + (freeFunctions names fs).length = fs.length := by
  induction names with
  | nil => simp [freeFunctions]
  | cons name names ih =>
    rw [List.nodup_cons] at h
    have hsplit := length_constructorsOf_add h.1 fs
    rw [List.map_cons, List.sum_cons, ← ih h.2]
    omega

end Count

section Packages

/--
How many functions a package has, and members of its types.
-/
def size (ns : Namespace) : Nat :=
  ns.functions.length + (ns.types.map (·.members.length)).sum

variable {ns : Namespace}

theorem size_settled (info : PackageInfo) (h : (ns.types.map (·.name)).Nodup) : size (settled info ns) = size ns := by
  have hcount := sum_length_constructorsOf h ns.functions
  rw [List.map_map] at hcount
  simp only [size, settled, List.map_map, Function.comp_def, List.length_append, List.sum_map_add] at hcount ⊢
  omega

theorem mem_functions_settled {info : PackageInfo} :
    f ∈ (settled info ns).functions ↔ f ∈ ns.functions ∧ ∀ t ∈ ns.types, ¬ Constructs f t.name := by
  rw [settled, freeFunctions, List.mem_filter, decide_eq_true_iff, List.forall_mem_map]

theorem Constructs.eq_of_mem {t t' : TypeEntry} (h : (ns.types.map (·.name)).Nodup) (ht : t ∈ ns.types)
    (hf : Constructs f t.name) (ht' : t' ∈ ns.types) (hf' : Constructs f t'.name) : t = t' :=
  List.inj_on_of_nodup_map h ht ht' (hf.name_eq hf')

theorem groupConstructors_eq (h : (ns.types.map (·.name)).Nodup)
    (hkinds : ∀ t ∈ ns.types, ∀ m ∈ t.members, m.kind ≠ .constructor) :
    groupConstructors ns =
      { ns with
        types := ns.types.map fun t => { t with members := constructorsOf t.name ns.functions ++ t.members }
        functions := freeFunctions (ns.types.map (·.name)) ns.functions } := by
  have hfree : ns.functions.filter (fun f => (constructedType? ns.types f).isNone) =
      freeFunctions (ns.types.map (·.name)) ns.functions := by
    apply List.filter_congr
    intro f _
    rw [Bool.eq_iff_iff, Option.isNone_iff_eq_none, constructedType?_eq_none_iff, decide_eq_true_iff]
  rw [← hfree, ← foldl_giveConstructor h hkinds]
  rfl

theorem settleType_eq (info : PackageInfo) (ns : Namespace) (t : TypeEntry) :
    settleType (ns.name == info.name) t =
      { t with
        kind := if t.kind = .aliasType ∧ t.values ≠ [] then .enum else t.kind
        entryPoint := if ns.name = info.name then true else t.entryPoint } := by
  unfold settleType
  congr 1
  . simp
  . by_cases hname : ns.name = info.name <;> simp [hname]

theorem groupConstructors_settleType (info : PackageInfo) (h : (ns.types.map (·.name)).Nodup)
    (hkinds : ∀ t ∈ ns.types, ∀ m ∈ t.members, m.kind ≠ .constructor) :
    groupConstructors { ns with types := ns.types.map (settleType (ns.name == info.name)) } = settled info ns := by
  have hnames : (ns.types.map (settleType (ns.name == info.name))).map (·.name) = ns.types.map (·.name) := by
    rw [List.map_map]
    rfl
  rw [groupConstructors_eq]
  . rw [settled, hnames, List.map_map]
    congr 1
    apply List.map_congr_left
    intro t _
    rw [Function.comp_apply, settleType_eq]
  . rw [hnames]
    exact h
  . rw [List.forall_mem_map]
    exact hkinds

end Packages

/--
In every package, a function is moved exactly if it constructs a type of the package, and then there is one such type. It
becomes a static constructor of that type; the constructors keep their order and stand in front of the other members,
which keep theirs, as do the functions that stay. No function or member is lost or added. Named types with values become
enumerations, the types of the main package become entry points, and nothing else changes.
-/
theorem finalize_settles (info : PackageInfo) (c : Collected)
    (hnames : ∀ ns ∈ c.namespaces, (ns.types.map (·.name)).Nodup)
    (hkinds : ∀ ns ∈ c.namespaces, ∀ t ∈ ns.types, ∀ m ∈ t.members, m.kind ≠ .constructor) :
    finalize info c = { c with namespaces := c.namespaces.map (settled info) } ∧
    ∀ ns ∈ c.namespaces,
      size (settled info ns) = size ns ∧
      ∀ f ∈ ns.functions,
        (f ∉ (settled info ns).functions ↔ ∃ t ∈ ns.types, Constructs f t.name) ∧
        (∀ t ∈ ns.types, Constructs f t.name → ∀ t' ∈ ns.types, Constructs f t'.name → t = t') := by
  constructor
  . unfold finalize
    congr 1
    apply List.map_congr_left
    intro ns hns
    exact groupConstructors_settleType info (hnames ns hns) (hkinds ns hns)
  . intro ns hns
    refine ⟨size_settled info (hnames ns hns), ?_⟩
    intro f hf
    constructor
    . rw [mem_functions_settled]
      simp [hf]
    . intro t ht hft t' ht' hft'
      exact Constructs.eq_of_mem (hnames ns hns) ht hft ht' hft'

namespace Widgets

def newClient : Member :=
  { name := "NewClient", kind := .method, results := [{ type := "*Client" }, { type := "error" }] }

def newPool : Member :=
  { name := "NewPool", kind := .method, results := [{ type := "*Pool[T]" }] }

def newClientFrom : Member :=
  { name := "NewClientFrom", kind := .method, results := [{ type := "Client" }] }

/--
It constructs a type of another package.
-/
def newLogger : Member :=
  { name := "NewLogger", kind := .method, results := [{ type := "*log.Logger" }] }

def client : TypeEntry :=
  { name := "Client", kind := .struct, members := [{ name := "HTTP", kind := .field }] }

def pool : TypeEntry :=
  { name := "Pool", kind := .struct, members := [{ name := "Len", kind := .method }] }

def color : TypeEntry :=
  { name := "Color", kind := .aliasType, values := ["Red", "Green"] }

/--
A package with three types and four functions.
-/
def package : Namespace :=
  { name := "widgets", types := [client, pool, color], functions := [newClient, newPool, newClientFrom, newLogger] }

/--
The package with its constructors moved.
-/
def settledPackage : Namespace :=
  { package with
    types :=
      [{ client with
          entryPoint := true
          members := [asConstructor newClient, asConstructor newClientFrom] ++ client.members },
        { pool with
          entryPoint := true
          members := asConstructor newPool :: pool.members },
        { color with
          entryPoint := true
          kind := .enum }]
    functions := [newLogger] }

theorem package_settled :
    (package.types.map (·.name)).Nodup ∧
    (∀ t ∈ package.types, ∀ m ∈ t.members, m.kind ≠ .constructor) ∧
    finalize { name := "widgets" } { namespaces := [package] } = { namespaces := [settledPackage] } ∧
    size settledPackage = size package ∧
    ∃ t ∈ package.types, Constructs newPool t.name := by
  have hnames : (package.types.map (·.name)).Nodup := by decide
  have hkinds : ∀ t ∈ package.types, ∀ m ∈ t.members, m.kind ≠ .constructor := by decide
  obtain ⟨hfinalize, hmoved⟩ := finalize_settles { name := "widgets" } { namespaces := [package] }
    (List.forall_mem_singleton.mpr hnames) (List.forall_mem_singleton.mpr hkinds)
  obtain ⟨hsize, hfunctions⟩ := hmoved package (List.mem_singleton_self package)
  have hsettled : settled { name := "widgets" } package = settledPackage := by decide +kernel
  rw [hsettled] at hsize hfunctions
  refine ⟨hnames, hkinds, ?_, hsize, ?_⟩
  . rw [hfinalize, List.map_singleton, hsettled]
  . have hpool : newPool ∈ package.functions := by decide
    exact (hfunctions newPool hpool).1.mp (by decide)

end Widgets

end ApiSurface.Go
