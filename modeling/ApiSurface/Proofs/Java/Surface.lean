import Mathlib.Data.List.Chain
import ApiSurface.Java.Parser
import ApiSurface.Java.Surface
import ApiSurface.Proofs.Lists

/-!
This module contains proofs about the entries of Java types: which of the types in a declaration have one, under which
name, and in which order.
-/

namespace ApiSurface.Java

/--
A declaration is in the body of a type at a place: it is there itself, or it is in the part of an enumeration behind its
constants. The bodies of the constants are not in the body of the type.
-/
inductive InBody (body : List Declaration) : List Nat → Declaration → Prop where
  | item {k : Nat} {d : Declaration} (hd : body[k]? = some d) : InBody body [k] d
  | inSection {k i : Nat} {ds : List Declaration} {d : Declaration} (hsection : body[k]? = some (.enumSection ds))
    (hd : ds[i]? = some d) : InBody body [k, i] d

/--
A type in a declaration, with its place there.
-/
structure Site where
  /-- The places in the bodies around that lead to the type, from the outermost body to the innermost one. -/
  path : List Nat
  /-- The heads of the types around, from the outermost type to the innermost one. -/
  outers : List TypeHead
  head : TypeHead
  body : List Declaration

namespace Site

/--
The head of the type, behind those of the types around it.
-/
def heads (s : Site) : List TypeHead :=
  s.outers ++ [s.head]

/--
The names of the types around and of the type itself, joined by dots.
-/
def name (s : Site) : String :=
  ".".intercalate (s.heads.map (·.name))

/--
The entry of the type, with its offset.
-/
def entry (s : Site) : TypeEntry × Nat :=
  (s.head.entry s.name s.body, s.head.offset)

/--
The type as seen from a type that has its declaration at a place of the body.
-/
def inside (s : Site) (h : TypeHead) (p : List Nat) : Site :=
  { s with path := p ++ s.path, outers := h :: s.outers }

/--
The type stands in the body of another one, with no type in between.
-/
structure DirectlyIn (s outer : Site) : Prop where
  outers : s.outers = outer.outers ++ [outer.head]
  place : ∃ p, s.path = outer.path ++ p ∧ InBody outer.body p (.type s.head s.body)

end Site

/--
A type is a declaration itself, or it is in a declaration of its body. What is in a method or in a constant does not
count.
-/
inductive IsIn : Declaration → Site → Prop where
  | here {h : TypeHead} {body : List Declaration} : IsIn (.type h body) ⟨[], [], h, body⟩
  | inside {h : TypeHead} {body : List Declaration} {p : List Nat} {d : Declaration} {s : Site}
    (hd : InBody body p d) (hs : IsIn d s) : IsIn (.type h body) (s.inside h p)

/--
A type directly in another one is visible there: in an interface and in an annotation type unless it is private, in
other types if it is public or protected.
-/
def VisibleWithin (outer h : TypeHead) : Prop :=
  if outer.sort = .interface ∨ outer.sort = .annotationType then
    h.modifiers.isPrivate = false
  else
    h.modifiers.isPublic = true ∨ h.modifiers.isProtected = true

/--
A type is visible if the outermost type is public and everything from there down to the type is visible in what is
around it.
-/
structure Site.IsVisible (s : Site) : Prop where
  outermost : ∀ h ∈ s.heads.head?, h.modifiers.isPublic = true
  inner : s.heads.IsChain VisibleWithin

/--
The entries of a declaration at the top of a file are those of some types in it.
-/
structure Declaration.Emits (d : Declaration) (sites : List Site) : Prop where
  entries : d.entries none false = sites.map Site.entry
  /-- The types are those that are visible, with everything around them. -/
  mem_iff : ∀ s, s ∈ sites ↔ IsIn d s ∧ s.IsVisible
  /-- Each of the types is there once, and they are in the order of their places. -/
  ordered : sites.Pairwise (fun s s' => s.path < s'.path)
  /-- The type directly around one of them is before it, and the name is that type's name with one more part. -/
  outerFirst : ∀ before s behind, sites = before ++ s :: behind → s.outers ≠ [] →
    ∃ outer ∈ before, s.DirectlyIn outer ∧ s.name = outer.name ++ "." ++ s.head.name

variable {d : Declaration} {ds body : List Declaration} {h outer : TypeHead} {s s' : Site} {n : Option String}
  {inInterface : Bool} {p q : List Nat}

theorem InBody.nil_lt_append (hd : InBody body p d) (q : List Nat) : [] < p ++ q := by
  cases hd <;> exact List.nil_lt_cons _ _

namespace Site

@[simp]
theorem heads_ne_nil : s.heads ≠ [] := by
  simp [heads]

theorem heads_inside : (s.inside h p).heads = h :: s.heads := by
  rfl

/--
The name of a type in a scope that may have a name itself.
-/
def nameFrom (s : Site) (n : Option String) : String :=
  nestedName n s.name

/--
The entry of a type in such a scope.
-/
def entryFrom (n : Option String) (s : Site) : TypeEntry × Nat :=
  (s.head.entry (s.nameFrom n) s.body, s.head.offset)

theorem nameFrom_inside : (s.inside h p).nameFrom n = s.nameFrom (some (nestedName n h.name)) := by
  have hne : s.heads.map (·.name) ≠ [] := by simp
  unfold nameFrom name
  rw [heads_inside, List.map_cons, String.intercalate_cons_of_ne_nil hne]
  cases n with
  | none => rfl
  | some o => simp only [nestedName, String.append_assoc]

theorem entryFrom_inside : (s.inside h p).entryFrom n = s.entryFrom (some (nestedName n h.name)) := by
  unfold entryFrom
  rw [nameFrom_inside]
  rfl

theorem entryFrom_here :
    (⟨[], [], h, body⟩ : Site).entryFrom n = (h.entry (nestedName n h.name) body, h.offset) := by
  have hname : (⟨[], [], h, body⟩ : Site).name = h.name := String.intercalate_singleton
  unfold entryFrom nameFrom
  rw [hname]

theorem DirectlyIn.heads_eq (hdirect : s.DirectlyIn s') : s.heads = s'.heads ++ [s.head] := by
  rw [heads, hdirect.outers]
  rfl

theorem DirectlyIn.name_eq (hdirect : s.DirectlyIn s') : s.name = s'.name ++ "." ++ s.head.name := by
  have hne : s'.heads.map (·.name) ≠ [] := by simp
  unfold name
  rw [hdirect.heads_eq, List.map_append, String.intercalate_append_of_ne_nil hne (by simp)]
  simp

theorem DirectlyIn.path_lt (hdirect : s.DirectlyIn s') : s'.path < s.path := by
  obtain ⟨p, hpath, hbody⟩ := hdirect.place
  have hlt : s'.path ++ [] < s'.path ++ (p ++ []) := List.append_left_lt (hbody.nil_lt_append [])
  rwa [List.append_nil, List.append_nil, ← hpath] at hlt

theorem DirectlyIn.inside (hdirect : s.DirectlyIn s') : (s.inside h p).DirectlyIn (s'.inside h p) := by
  obtain ⟨q, hpath, hbody⟩ := hdirect.place
  constructor
  . simp [Site.inside, hdirect.outers]
  . exact ⟨q, by simp [Site.inside, hpath], hbody⟩

theorem DirectlyIn.isVisible (hdirect : s.DirectlyIn s') (hs : s.IsVisible) : s'.IsVisible := by
  obtain ⟨houtermost, hinner⟩ := hs
  rw [hdirect.heads_eq] at houtermost hinner
  constructor
  . rwa [List.head?_append_of_ne_nil _ heads_ne_nil] at houtermost
  . exact (List.isChain_append.1 hinner).1

end Site

theorem IsIn.eq_of_outers_eq_nil (hin : IsIn d s) (houters : s.outers = []) :
    d = .type s.head s.body ∧ s.path = [] := by
  cases hin with
  | here => exact ⟨rfl, rfl⟩
  | inside _ _ => contradiction

theorem IsIn.exists_directlyIn (hin : IsIn d s) (hnested : s.outers ≠ []) :
    ∃ outer, IsIn d outer ∧ s.DirectlyIn outer := by
  induction hin with
  | here => contradiction
  | @inside h body p d s hd hs ih =>
    by_cases houters : s.outers = []
    . obtain ⟨rfl, hpath⟩ := hs.eq_of_outers_eq_nil houters
      refine ⟨⟨[], [], h, body⟩, .here, ?_, p, ?_, hd⟩
      . simp [Site.inside, houters]
      . simp [Site.inside, hpath]
    . obtain ⟨outer, houter, hdirect⟩ := ih houters
      exact ⟨outer.inside h p, .inside hd houter, hdirect.inside⟩

/-!
Below, `sites` enumerates all types in a declaration, so that the entries are those of the visible ones among them.
-/

theorem visibleWithin_iff : VisibleWithin outer h ↔ h.modifiers.isVisible outer.sort.isInterface = true := by
  unfold VisibleWithin Modifiers.isVisible TypeSort.isInterface
  cases outer.sort <;> simp

instance (outer h : TypeHead) : Decidable (VisibleWithin outer h) :=
  decidable_of_iff _ visibleWithin_iff.symm

/--
A type is visible from a scope if the outermost type in the scope is visible there and everything from that one down to
the type is visible in what is around it.
-/
def Site.isVisibleFrom (n : Option String) (inInterface : Bool) (s : Site) : Bool :=
  decide ((∀ h ∈ s.heads.head?, h.isVisible n inInterface = true) ∧ s.heads.IsChain VisibleWithin)

theorem Site.isVisibleFrom_none_iff : s.isVisibleFrom none false = true ↔ s.IsVisible := by
  rw [isVisibleFrom, decide_eq_true_iff]
  exact ⟨fun hs => ⟨hs.1, hs.2⟩, fun hs => ⟨hs.outermost, hs.inner⟩⟩

theorem Site.isVisibleFrom_here :
    (⟨[], [], h, body⟩ : Site).isVisibleFrom n inInterface = h.isVisible n inInterface := by
  simp [isVisibleFrom, heads]

theorem Site.isVisibleFrom_inside (name : String) :
    (s.inside h p).isVisibleFrom n inInterface
      =
    (h.isVisible n inInterface && s.isVisibleFrom (some name) h.sort.isInterface) := by
  rw [Bool.eq_iff_iff, Bool.and_eq_true]
  unfold isVisibleFrom
  rw [decide_eq_true_iff, decide_eq_true_iff, heads_inside, List.isChain_cons]
  simp only [List.head?_cons, Option.mem_some_iff, forall_eq', visibleWithin_iff, TypeHead.isVisible]

/--
What a declaration contributes to the body that has it at a place. The part behind the constants of an enumeration is
taken apart.
-/
def Declaration.places (k : Nat) : Declaration → List (List Nat × Declaration)
  | .enumSection ds => ds.zipIdx.map fun x => ([k, x.2], x.1)
  | d => [([k], d)]

/--
What is in the body of a type, with its places.
-/
def bodyPlaces (body : List Declaration) : List (List Nat × Declaration) :=
  body.zipIdx.flatMap fun x => x.1.places x.2

theorem inBody_of_mem_bodyPlaces (hd : (p, d) ∈ bodyPlaces body) : InBody body p d := by
  obtain ⟨⟨d', k⟩, hd', hd⟩ := List.mem_flatMap.1 hd
  have hd' := List.mk_mem_zipIdx_iff_getElem?.1 hd'
  cases d' with
  | enumSection ds =>
    obtain ⟨⟨d'', i⟩, hd'', heq⟩ := List.mem_map.1 hd
    cases heq
    exact .inSection hd' (List.mk_mem_zipIdx_iff_getElem?.1 hd'')
  | _ =>
    cases List.mem_singleton.1 hd
    exact .item hd'

theorem InBody.mem_bodyPlaces (hd : InBody body p d) (hne : ∀ ds, d ≠ .enumSection ds) : (p, d) ∈ bodyPlaces body := by
  apply List.mem_flatMap.2
  cases hd with
  | @item k d hd =>
    refine ⟨(d, k), List.mk_mem_zipIdx_iff_getElem?.2 hd, ?_⟩
    cases d with
    | enumSection ds => exact absurd rfl (hne ds)
    | _ => exact List.mem_singleton_self _
  | @inSection k i ds d hsection hd =>
    refine ⟨(.enumSection ds, k), List.mk_mem_zipIdx_iff_getElem?.2 hsection, ?_⟩
    exact List.mem_map.2 ⟨(d, i), List.mk_mem_zipIdx_iff_getElem?.2 hd, rfl⟩

theorem exists_cons_of_mem_places {k : Nat} {x : List Nat × Declaration} (hx : x ∈ d.places k) : ∃ p, x.1 = k :: p := by
  cases d with
  | enumSection ds =>
    obtain ⟨y, _, rfl⟩ := List.mem_map.1 hx
    exact ⟨[y.2], rfl⟩
  | _ => exact ⟨[], by rw [List.mem_singleton.1 hx]⟩

/--
The places of a body are in an order that paths behind them keep.
-/
theorem pairwise_bodyPlaces (body : List Declaration) :
    (bodyPlaces body).Pairwise (fun x y => ∀ q q', x.1 ++ q < y.1 ++ q') := by
  apply List.pairwise_flatMap.2
  constructor
  . rintro ⟨d, k⟩ -
    cases d with
    | enumSection ds =>
      rw [Declaration.places, List.pairwise_map]
      apply (pairwise_zipIdx ds).imp
      intro x y hlt q q'
      exact List.cons_lt_cons_iff.2 (Or.inr ⟨rfl, List.cons_lt_cons_iff.2 (Or.inl hlt)⟩)
    | _ => exact List.pairwise_singleton _ _
  . apply (pairwise_zipIdx body).imp
    intro x y hlt x' hx' y' hy' q q'
    obtain ⟨p, hp⟩ := exists_cons_of_mem_places hx'
    obtain ⟨p', hp'⟩ := exists_cons_of_mem_places hy'
    rw [hp, hp']
    exact List.cons_lt_cons_iff.2 (Or.inl hlt)

theorem map_places (k : Nat) (d : Declaration) : (d.places k).map (·.2) = d.items := by
  cases d with
  | enumSection ds =>
    rw [Declaration.places, List.map_map]
    exact List.zipIdx_map_fst 0 ds
  | _ => rfl

theorem map_bodyPlaces (body : List Declaration) : (bodyPlaces body).map (·.2) = body.flatMap Declaration.items := by
  have hplaces : (bodyPlaces body).map (·.2) = body.zipIdx.flatMap (fun x => x.1.items) := by
    unfold bodyPlaces
    rw [List.map_flatMap]
    exact List.flatMap_congr (fun x _ => map_places x.2 x.1)
  rw [hplaces, ← List.flatMap_map, List.zipIdx_map_fst]

theorem sizeOf_lt_of_mem_bodyPlaces (hd : (p, d) ∈ bodyPlaces body) : sizeOf d < sizeOf (Declaration.type h body) := by
  cases inBody_of_mem_bodyPlaces hd with
  | item hd =>
    have := List.sizeOf_lt_of_mem (List.mem_of_getElem? hd)
    rw [Declaration.type.sizeOf_spec]
    omega
  | inSection hsection hd =>
    have := List.sizeOf_lt_of_mem (List.mem_of_getElem? hd)
    have := List.sizeOf_lt_of_mem (List.mem_of_getElem? hsection)
    rw [Declaration.enumSection.sizeOf_spec] at this
    rw [Declaration.type.sizeOf_spec]
    omega

/--
The types in a declaration, each one in front of those in its body.
-/
def Declaration.sites : Declaration → List Site
  | .type h body =>
    ⟨[], [], h, body⟩ :: (bodyPlaces body).attach.flatMap fun x => x.1.2.sites.map (fun s => s.inside h x.1.1)
  | _ => []
termination_by d => sizeOf d
decreasing_by exact sizeOf_lt_of_mem_bodyPlaces x.2

theorem Declaration.sites_type :
    (Declaration.type h body).sites
      =
    ⟨[], [], h, body⟩ :: (bodyPlaces body).flatMap (fun x => x.2.sites.map (fun s => s.inside h x.1)) := by
  rw [Declaration.sites, List.flatMap_subtype (g := fun x => x.2.sites.map (fun s => s.inside h x.1)) (fun _ _ => rfl),
    List.unattach_attach]

theorem Declaration.sites_eq_nil (hd : ∀ h body, d ≠ .type h body) : d.sites = [] := by
  rw [Declaration.sites]
  exact hd

theorem IsIn.exists_eq_type (hin : IsIn d s) : ∃ h body, d = .type h body := by
  cases hin <;> exact ⟨_, _, rfl⟩

theorem Declaration.mem_sites_iff (d : Declaration) (s : Site) : s ∈ d.sites ↔ IsIn d s := by
  induction d using Declaration.sites.induct generalizing s with
  | case1 h body ih =>
    rw [Declaration.sites_type, List.mem_cons, List.mem_flatMap]
    constructor
    . intro hs
      rcases hs with rfl | ⟨⟨p, d⟩, hd, hs⟩
      . exact .here
      . obtain ⟨s', hs', rfl⟩ := List.mem_map.1 hs
        exact .inside (inBody_of_mem_bodyPlaces hd) ((ih ⟨(p, d), hd⟩ s').1 hs')
    . intro hs
      cases hs with
      | here => exact Or.inl rfl
      | @inside _ _ p d s' hd hs' =>
        obtain ⟨h', body', rfl⟩ := hs'.exists_eq_type
        have hmem := hd.mem_bodyPlaces (by simp)
        exact Or.inr ⟨_, hmem, List.mem_map.2 ⟨s', (ih ⟨_, hmem⟩ s').2 hs', rfl⟩⟩
  | case2 d hd =>
    rw [Declaration.sites_eq_nil hd]
    apply iff_of_false List.not_mem_nil
    intro hin
    obtain ⟨h, body, rfl⟩ := hin.exists_eq_type
    exact hd h body rfl

theorem Declaration.pairwise_sites (d : Declaration) : d.sites.Pairwise (fun s s' => s.path < s'.path) := by
  induction d using Declaration.sites.induct with
  | case1 h body ih =>
    rw [Declaration.sites_type, List.pairwise_cons, List.pairwise_flatMap]
    refine ⟨?_, ?_, ?_⟩
    . intro s hs
      obtain ⟨x, hx, hs⟩ := List.mem_flatMap.1 hs
      obtain ⟨s', _, rfl⟩ := List.mem_map.1 hs
      exact (inBody_of_mem_bodyPlaces hx).nil_lt_append s'.path
    . intro x hx
      rw [List.pairwise_map]
      apply (ih ⟨x, hx⟩).imp
      intro s s' hlt
      exact List.append_left_lt hlt
    . apply (pairwise_bodyPlaces body).imp
      intro x y hlt s hs s' hs'
      obtain ⟨t, _, rfl⟩ := List.mem_map.1 hs
      obtain ⟨t', _, rfl⟩ := List.mem_map.1 hs'
      exact hlt t.path t'.path
  | case2 d hd =>
    rw [Declaration.sites_eq_nil hd]
    exact List.Pairwise.nil

/--
The entries that the visible ones of some types in a declaration have in a scope.
-/
def entriesFrom (n : Option String) (inInterface : Bool) (ss : List Site) : List (TypeEntry × Nat) :=
  (ss.filter (Site.isVisibleFrom n inInterface)).map (Site.entryFrom n)

theorem entriesFrom_append (ss ss' : List Site) :
    entriesFrom n inInterface (ss ++ ss') = entriesFrom n inInterface ss ++ entriesFrom n inInterface ss' := by
  unfold entriesFrom
  rw [List.filter_append, List.map_append]

theorem entriesFrom_flatMap {α : Type} (xs : List α) (f : α → List Site) :
    entriesFrom n inInterface (xs.flatMap f) = xs.flatMap (fun x => entriesFrom n inInterface (f x)) := by
  unfold entriesFrom
  rw [List.filter_flatMap, List.map_flatMap]

theorem entriesFrom_here :
    entriesFrom n inInterface [⟨[], [], h, body⟩]
      =
    if h.isVisible n inInterface then [(h.entry (nestedName n h.name) body, h.offset)] else [] := by
  unfold entriesFrom
  rw [List.filter_singleton, Site.isVisibleFrom_here, Bool.cond_eq_ite]
  split
  next => rw [List.map_singleton, Site.entryFrom_here]
  next => rfl

theorem entriesFrom_map_inside (ss : List Site) :
    entriesFrom n inInterface (ss.map (fun s => s.inside h p))
      =
    if h.isVisible n inInterface then
      entriesFrom (some (nestedName n h.name)) h.sort.isInterface ss
    else
      [] := by
  unfold entriesFrom
  rw [List.filter_map, List.map_map]
  split
  next hvisible =>
    have hfilter : ∀ s ∈ ss, (Site.isVisibleFrom n inInterface ∘ fun s => s.inside h p) s
        = s.isVisibleFrom (some (nestedName n h.name)) h.sort.isInterface := by
      intro s _
      rw [Function.comp_apply, Site.isVisibleFrom_inside, hvisible, Bool.true_and]
    rw [List.filter_congr hfilter]
    apply List.map_congr_left
    intro s _
    apply Site.entryFrom_inside
  next hinvisible =>
    rw [List.map_eq_nil_iff, List.filter_eq_nil_iff]
    intro s _ hs
    rw [Function.comp_apply, Site.isVisibleFrom_inside "", Bool.and_eq_true] at hs
    exact hinvisible hs.1

theorem entriesOf_eq_flatMap (ds : List Declaration) :
    entriesOf n inInterface ds = ds.flatMap (Declaration.entries n inInterface) := by
  induction ds with
  | nil => rfl
  | cons d rest ih => rw [entriesOf, ih, List.flatMap_cons]

theorem bodyEntries_eq_flatMap (name : String) (body : List Declaration) :
    bodyEntries name inInterface body = (bodyPlaces body).flatMap (fun x => x.2.entries (some name) inInterface) := by
  have hitems : bodyEntries name inInterface body
      =
    (body.flatMap Declaration.items).flatMap (Declaration.entries (some name) inInterface) := by
    induction body with
    | nil => rfl
    | cons d rest ih =>
      rw [List.flatMap_cons, List.flatMap_append, ← ih]
      cases d with
      | enumSection ds => rw [bodyEntries, entriesOf_eq_flatMap, Declaration.items]
      | _ => rw [Declaration.items, List.flatMap_singleton, bodyEntries] <;> nofun
  rw [hitems, ← map_bodyPlaces, List.flatMap_map]

theorem Declaration.entries_eq (d : Declaration) (n : Option String) (inInterface : Bool) :
    d.entries n inInterface = entriesFrom n inInterface d.sites := by
  induction d using Declaration.sites.induct generalizing n inInterface with
  | case1 h body ih =>
    have hbody : ∀ x ∈ bodyPlaces body, entriesFrom n inInterface (x.2.sites.map (fun s => s.inside h x.1))
        =
      if h.isVisible n inInterface then
        x.2.entries (some (nestedName n h.name)) h.sort.isInterface
      else
        [] := by
      intro x hx
      rw [entriesFrom_map_inside, ih ⟨x, hx⟩]
    rw [Declaration.sites_type, ← List.singleton_append, entriesFrom_append, entriesFrom_here, entriesFrom_flatMap,
      List.flatMap_congr hbody, Declaration.entries]
    split
    next => exact congrArg _ (bodyEntries_eq_flatMap _ body)
    next => simp
  | case2 d hd =>
    rw [Declaration.sites_eq_nil hd, Declaration.entries]
    . rfl
    . exact hd

/--
The entries of a declaration at the top of a file are those of the types in it that are visible with everything around
them, each one once, under its path of names and behind the type around it.
-/
theorem Declaration.exists_emits (d : Declaration) : ∃ sites, d.Emits sites := by
  have hmem : ∀ s, s ∈ d.sites.filter (Site.isVisibleFrom none false) ↔ IsIn d s ∧ s.IsVisible := by
    intro s
    rw [List.mem_filter, d.mem_sites_iff, Site.isVisibleFrom_none_iff]
  have hordered := d.pairwise_sites.filter (Site.isVisibleFrom none false)
  refine ⟨d.sites.filter (Site.isVisibleFrom none false), ?_, hmem, hordered, ?_⟩
  . rw [d.entries_eq]
    rfl
  . intro before s behind hsites hnested
    rw [hsites] at hmem hordered
    obtain ⟨hin, hvisible⟩ := (hmem s).1 (List.mem_append_cons_self)
    obtain ⟨outer, houter, hdirect⟩ := hin.exists_directlyIn hnested
    have hmemOuter := (hmem outer).2 ⟨houter, hdirect.isVisible hvisible⟩
    rw [List.pairwise_append, List.pairwise_cons] at hordered
    rw [List.mem_append, List.mem_cons] at hmemOuter
    have hbefore : outer ∈ before := by
      rcases hmemOuter with hbefore | rfl | hbehind
      . exact hbefore
      . exact absurd hdirect.path_lt (List.lt_irrefl _)
      . exact absurd hdirect.path_lt (List.lt_asymm (hordered.2.1.1 outer hbehind))
    exact ⟨outer, hbefore, hdirect, hdirect.name_eq⟩

-- The class in the body of the constant and the one in the method are in no body of a type.
example :
    let source := SourceText.parse
      "public enum A { X { class L {} }; void m() { class M {} } public interface B { class C {} } class D {} }"
    (entriesOf none false source.declarations).map (·.1.name) = ["A", "A.B", "A.B.C"] := by
  decide +kernel

end ApiSurface.Java
