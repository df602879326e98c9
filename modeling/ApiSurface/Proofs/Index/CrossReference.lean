import Mathlib.Data.List.Forall2
import ApiSurface.CrossReference
import ApiSurface.Diagnostic.Rules
import ApiSurface.Proofs.Reference.Edges
import ApiSurface.Reference.Prune

/-!
This module contains the theory of attaching identities. Nothing else in the index changes, and neither the reference
graph nor any rule looks at identities; so they may be attached before an index is pruned or checked, or after it.
-/

namespace ApiSurface

def Member.withoutIdentity (m : Member) : Member :=
  { m with crossLanguageId := none }

def TypeEntry.withoutIdentities (t : TypeEntry) : TypeEntry :=
  { t with crossLanguageId := none, members := t.members.map Member.withoutIdentity }

def Namespace.withoutIdentities (ns : Namespace) : Namespace :=
  { ns with
    types := ns.types.map TypeEntry.withoutIdentities
    functions := ns.functions.map Member.withoutIdentity }

/--
The index without the identities that it has in other languages.
-/
def Index.withoutIdentities (i : Index) : Index :=
  { i with crossLanguagePackageId := none, namespaces := i.namespaces.map Namespace.withoutIdentities }

namespace TypeEntry

variable (t : TypeEntry)

theorem callables_withoutIdentities : t.withoutIdentities.callables = t.callables.map Member.withoutIdentity := by
  unfold callables withoutIdentities
  rw [List.filter_map]
  rfl

theorem hasCallables_withoutIdentities : t.withoutIdentities.hasCallables = t.hasCallables := by
  unfold hasCallables withoutIdentities
  rw [List.any_map]
  rfl

theorem mentions_withoutIdentities :
    ReferenceGraph.mentions t.withoutIdentities = ReferenceGraph.mentions t := by
  unfold ReferenceGraph.mentions withoutIdentities
  rw [List.flatMap_map]
  rfl

theorem satisfies_withoutIdentities (face : TypeEntry) :
    ReferenceGraph.satisfies t.withoutIdentities face.withoutIdentities = ReferenceGraph.satisfies t face := by
  unfold ReferenceGraph.satisfies
  simp only [callables_withoutIdentities, hasCallables_withoutIdentities, List.all_map, List.any_map]
  rfl

end TypeEntry

namespace ReferenceGraph

/--
A declaration without identities.
-/
def anonymous (d : String × TypeEntry) : String × TypeEntry :=
  (d.1, d.2.withoutIdentities)

variable (table : TypeTable) (types : List (String × TypeEntry)) (g : ReferenceGraph)

theorem addType_withoutIdentities (ns : String) (t : TypeEntry) : g.addType ns t.withoutIdentities = g.addType ns t := by
  unfold addType
  rw [t.hasCallables_withoutIdentities]
  rfl

theorem addMentions_anonymous (d : String × TypeEntry) : addMentions table g (anonymous d) = addMentions table g d := by
  unfold addMentions mentionedTypes anonymous
  rw [d.2.mentions_withoutIdentities]
  rfl

theorem addSatisfied_anonymous (d : String × TypeEntry) :
    addSatisfied (types.map anonymous) g (anonymous d) = addSatisfied types g d := by
  unfold addSatisfied
  rw [List.foldl_map]
  simp only [anonymous, TypeEntry.satisfies_withoutIdentities]
  rfl

end ReferenceGraph

namespace Index

open ReferenceGraph

variable (i : Index)

theorem types_withoutIdentities : i.withoutIdentities.types = i.types.map anonymous := by
  unfold types withoutIdentities
  rw [List.flatMap_map, List.map_flatMap]
  simp only [Namespace.withoutIdentities, List.map_map]
  rfl

theorem ofNamespaces_withoutIdentities :
    TypeTable.ofNamespaces i.withoutIdentities.namespaces = TypeTable.ofNamespaces i.namespaces := by
  unfold TypeTable.ofNamespaces withoutIdentities
  simp only [List.map_map, List.flatMap_map, Namespace.withoutIdentities]
  rfl

theorem ofIndex_withoutIdentities : ofIndex i.withoutIdentities = ofIndex i := by
  have htypes : withTypes i.withoutIdentities = withTypes i := by
    unfold withTypes
    rw [types_withoutIdentities, List.foldl_map]
    simp only [anonymous, addType_withoutIdentities]
  rw [ofIndex_eq, ofIndex_eq, htypes, ofNamespaces_withoutIdentities, types_withoutIdentities, List.foldl_map,
    List.foldl_map]
  simp only [addMentions_anonymous, addSatisfied_anonymous]

theorem findings_withoutIdentities : i.withoutIdentities.findings = i.findings := by
  have hdocumentation : i.withoutIdentities.missingDocumentation = i.missingDocumentation := by
    unfold missingDocumentation
    rw [types_withoutIdentities, List.filterMap_map]
    rfl
  have hentries : i.withoutIdentities.emptyEntryPoints = i.emptyEntryPoints := by
    unfold emptyEntryPoints
    rw [types_withoutIdentities, List.filterMap_map]
    congr 1
    funext d
    rw [Function.comp_apply, anonymous]
    dsimp only
    rw [TypeEntry.hasCallables_withoutIdentities]
    rfl
  have hnames : i.withoutIdentities.deprecatedNames = i.deprecatedNames := by
    unfold deprecatedNames
    rw [types_withoutIdentities, List.filter_map, List.map_map]
    rfl
  unfold findings
  rw [hdocumentation, hentries, hnames]
  simp only [withoutIdentities, Namespace.withoutIdentities, TypeEntry.withoutIdentities, List.flatMap_map]
  rfl

variable {i} {j : Index} (h : i.withoutIdentities = j.withoutIdentities)

include h

theorem ofIndex_eq_of_withoutIdentities_eq : ofIndex i = ofIndex j := by
  rw [← i.ofIndex_withoutIdentities, h, j.ofIndex_withoutIdentities]

theorem findings_eq_of_withoutIdentities_eq : i.findings = j.findings := by
  rw [← i.findings_withoutIdentities, h, j.findings_withoutIdentities]

end Index

namespace CrossReference

/--
What becomes of the identity of an item with a key: the canonical identity of the key replaces it, and without one
it stays.
-/
structure Identified (m : CrossReference) (key : String) (before after : Option String) : Prop where
  known : ∀ canonical, m.ids.lookup key = some canonical → after = some canonical
  unknown : key ∉ m.ids.map (·.1) → after = before

/--
The key of a type: its id, or its qualified name.
-/
def typeKey (ns : String) (t : TypeEntry) : String :=
  t.id.getD (qualify ns t.name)

/--
The second member has the identity that belongs to the first, whose key without an id is `name`.
-/
def MemberIdentified (m : CrossReference) (name : String) (a b : Member) : Prop :=
  m.Identified (a.id.getD name) a.crossLanguageId b.crossLanguageId

/--
The second type has the identity that belongs to the first, and so have its members.
-/
structure TypeIdentified (m : CrossReference) (ns : String) (s t : TypeEntry) : Prop where
  self : m.Identified (typeKey ns s) s.crossLanguageId t.crossLanguageId
  members : List.Forall₂ (fun a b => m.MemberIdentified (typeKey ns s ++ "." ++ a.name) a b) s.members t.members

/--
The items of the second namespace have the identities that belong to those of the first.
-/
structure NamespaceIdentified (m : CrossReference) (a b : Namespace) : Prop where
  types : List.Forall₂ (m.TypeIdentified a.name) a.types b.types
  functions : List.Forall₂ (fun f g => m.MemberIdentified (qualify a.name f.name) f g) a.functions b.functions

/--
The second index has the package id that belongs to the first, and so have all items.
-/
structure IndexIdentified (m : CrossReference) (i j : Index) : Prop where
  known : ∀ id, m.packageId = some id → j.crossLanguagePackageId = some id
  unknown : m.packageId = none → j.crossLanguagePackageId = i.crossLanguagePackageId
  namespaces : List.Forall₂ m.NamespaceIdentified i.namespaces j.namespaces

variable (m : CrossReference)

theorem lookup?_eq_lookup (id : String) : m.lookup? id = m.ids.lookup id := by
  unfold lookup?
  induction m.ids with
  | nil => rfl
  | cons e ids ih =>
    rw [List.find?_cons, List.lookup_cons]
    by_cases heq : e.1 = id
    . simp [heq]
    . have hne : (e.1 == id) = false := by simpa using heq
      have hne' : (id == e.1) = false := by simpa using Ne.symm heq
      rw [hne, hne']
      exact ih

theorem identified_identify (key : String) (before : Option String) :
    m.Identified key before (m.identify key before) := by
  constructor
  . intro canonical hknown
    rw [identify, lookup?_eq_lookup, hknown]
    rfl
  . intro hunknown
    have hnone : m.ids.lookup key = none := by
      rw [List.lookup_eq_none_iff]
      intro e he
      rw [bne_iff_ne]
      rintro rfl
      exact hunknown (List.mem_map_of_mem he)
    rw [identify, lookup?_eq_lookup, hnone]
    rfl

theorem identify_identify (key : String) (before : Option String) :
    m.identify key (m.identify key before) = m.identify key before := by
  unfold identify
  cases m.lookup? key with
  | none => rfl
  | some canonical => rfl

theorem attachMember_attachMember (name : String) (member : Member) :
    m.attachMember name (m.attachMember name member) = m.attachMember name member := by
  simp only [attachMember, identify_identify]

theorem attachType_attachType (ns : String) (t : TypeEntry) :
    m.attachType ns (m.attachType ns t) = m.attachType ns t := by
  simp only [attachType, identify_identify, List.map_map]
  congr 2
  funext member
  exact m.attachMember_attachMember _ member

theorem attach_attach (i : Index) : m.attach (m.attach i) = m.attach i := by
  have hpackage : (m.packageId <|> (m.packageId <|> i.crossLanguagePackageId))
      = (m.packageId <|> i.crossLanguagePackageId) := by
    cases m.packageId <;> rfl
  simp only [attach, hpackage, List.map_map]
  congr 2
  funext ns
  have htypes : (m.attachType ns.name) ∘ (m.attachType ns.name) = m.attachType ns.name :=
    funext (m.attachType_attachType ns.name)
  have hfunctions : (fun f : Member => m.attachMember (qualify ns.name f.name) f) ∘
      (fun f => m.attachMember (qualify ns.name f.name) f) = fun f => m.attachMember (qualify ns.name f.name) f :=
    funext (fun f => m.attachMember_attachMember _ f)
  simp only [Function.comp_apply, List.map_map, htypes, hfunctions]

theorem withoutIdentities_attachType (ns : String) (t : TypeEntry) :
    (m.attachType ns t).withoutIdentities = t.withoutIdentities := by
  simp only [TypeEntry.withoutIdentities, attachType, List.map_map]
  rfl

theorem withoutIdentities_attach (i : Index) : (m.attach i).withoutIdentities = i.withoutIdentities := by
  have htypes : ∀ ns : String, TypeEntry.withoutIdentities ∘ m.attachType ns = TypeEntry.withoutIdentities :=
    fun ns => funext (m.withoutIdentities_attachType ns)
  simp only [Index.withoutIdentities, attach, List.map_map]
  congr 2
  funext ns
  simp only [Function.comp_apply, Namespace.withoutIdentities, List.map_map, htypes]
  rfl

theorem memberIdentified_attachMember (name : String) (member : Member) :
    m.MemberIdentified name member (m.attachMember name member) :=
  m.identified_identify _ _

theorem typeIdentified_attachType (ns : String) (t : TypeEntry) : m.TypeIdentified ns t (m.attachType ns t) where
  self := m.identified_identify _ _
  members := by
    rw [attachType, List.forall₂_map_right_iff, List.forall₂_same]
    intro member _
    apply memberIdentified_attachMember

theorem indexIdentified_attach (i : Index) : m.IndexIdentified i (m.attach i) where
  known := by
    intro id hid
    rw [attach, hid]
    rfl
  unknown := by
    intro hnone
    rw [attach, hnone]
    rfl
  namespaces := by
    rw [attach, List.forall₂_map_right_iff, List.forall₂_same]
    intro ns _
    constructor
    . rw [List.forall₂_map_right_iff, List.forall₂_same]
      intro t _
      apply typeIdentified_attachType
    . rw [List.forall₂_map_right_iff, List.forall₂_same]
      intro f _
      apply memberIdentified_attachMember

theorem attach_restrict (i : Index) (kept : List TypeKey) :
    m.attach (i.restrict kept) = (m.attach i).restrict kept := by
  simp only [attach, Index.restrict, List.map_map, List.filter_map]
  congr 2
  . funext ns
    simp only [Function.comp_apply, List.filter_map]
    rfl
  . congr 1
    funext ns
    simp only [Function.comp_apply, Namespace.isEmpty, List.filter_map, List.isEmpty_map]
    rfl

theorem attach_prune (i : Index) : m.attach i.prune = (m.attach i).prune := by
  have hgraph := Index.ofIndex_eq_of_withoutIdentities_eq (m.withoutIdentities_attach i)
  unfold Index.prune Index.pruneWithStats
  rw [attach_restrict, hgraph]

theorem attach_diagnose (i : Index) : m.attach i.diagnose = (m.attach i).diagnose := by
  have hfindings := Index.findings_eq_of_withoutIdentities_eq (m.withoutIdentities_attach i)
  unfold Index.diagnose
  rw [hfindings]
  rfl

theorem attach_additive_and_commutes (i : Index) :
    (m.attach i).withoutIdentities = i.withoutIdentities ∧
    m.IndexIdentified i (m.attach i) ∧
    m.attach (m.attach i) = m.attach i ∧
    m.attach i.prune = (m.attach i).prune ∧
    m.attach i.diagnose = (m.attach i).diagnose :=
  ⟨m.withoutIdentities_attach i, m.indexIdentified_attach i, m.attach_attach i, m.attach_prune i, m.attach_diagnose i⟩

end CrossReference

end ApiSurface
