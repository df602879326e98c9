import ApiSurface.Diagnostic.Rules
import ApiSurface.Proofs.Diagnostic.Merge
import ApiSurface.Proofs.Text.Name

/-!
This module contains the theory of the rule about deprecated types of parameters. A finding tells the owner, the member,
the parameter and the type, and merging loses none of them. The rule looks at the first deprecated type in the text of a
parameter and at no other: if that is the owner itself, then a deprecated type behind it is not reported.
-/

namespace ApiSurface

open Text

/--
The name by which findings call a parameter.
-/
def Param.label (p : Param) : String :=
  p.name.getD "_"

/--
A member with the type it belongs to, if there is one.
-/
def ownedName (owner : Option String) (member : String) : String :=
  match owner with
  | some o => o ++ "." ++ member
  | none => member

/--
The finding about a parameter of a deprecated type.
-/
def Diagnostic.deprecatedParameter (owner : Option String) (member label type : String) : Diagnostic :=
  { id := "APG003", level := .warning
    text := "Parameter `" ++ label ++ "` of `" ++ ownedName owner member ++ "` uses deprecated type `" ++ type ++ "`"
    targetType := owner, targetMember := some member }

namespace Index

/--
A caller can invoke the member, of the type `owner` or free, and hands it the parameter.
-/
structure HasParameter (i : Index) (owner : Option String) (m : Member) (p : Param) : Prop where
  callable : m.isCallable = true
  mem_params : p ∈ m.params
  declared : ∃ ns ∈ i.namespaces,
    (∃ t ∈ ns.types, owner = some t.name ∧ m ∈ t.members) ∨ (owner = none ∧ m ∈ ns.functions)

/--
The text of the parameter mentions a deprecated type of this name, which is not that of the owner.
-/
structure MentionsDeprecated (i : Index) (owner : Option String) (p : Param) (name : String) : Prop where
  mem_tokens : name ∈ identifierTokens p.type
  deprecated : ∃ d ∈ i.types, d.2.deprecated = true ∧ d.2.name = name
  foreign : owner ≠ some name

/--
The first name of a deprecated type in the text of the parameter.
-/
def firstDeprecated? (i : Index) (p : Param) : Option String :=
  (identifierTokens p.type).find? i.deprecatedNames.contains

/--
The first deprecated type in the text of the parameter is the owner itself.
-/
def StartsWithOwner (i : Index) (owner : Option String) (p : Param) : Prop :=
  ∃ name, owner = some name ∧ i.firstDeprecated? p = some name

/--
There is a finding that names the parameter by its owner, its member and its label, and tells a deprecated type.
-/
def ReportsParameter (i : Index) (owner : Option String) (member label : String) : Prop :=
  ∃ type, IsIdentifier type ∧ Diagnostic.deprecatedParameter owner member label type ∈ i.findings

end Index

namespace Diagnostic

variable {owner : Option String} {member label label' type type' : String}

theorem text_deprecatedParameter (owner : Option String) (member label type : String) :
    (deprecatedParameter owner member label type).text.toList
      =
    "Parameter `".toList ++
      (label.toList ++ ("` of `".toList ++ (ownedName owner member).toList ++ "` uses deprecated type ".toList)) ++
      '`' :: (type.toList ++ ['`']) := by
  simp [deprecatedParameter]

/--
The type is what stands behind the last but one of the marks, so the text tells the type and the label.
-/
theorem deprecatedParameter_inj (htype : IsIdentifier type) (htype' : IsIdentifier type')
    (h : deprecatedParameter owner member label type = deprecatedParameter owner member label' type') :
    label = label' ∧ type = type' := by
  have hmark : ∀ {name : String}, IsIdentifier name → '`' ∉ name.toList.reverse := by
    intro name hname hmem
    exact absurd (hname _ (List.mem_reverse.mp hmem)) (by decide)
  have htext := congrArg (fun d : Diagnostic => d.text.toList.reverse) h
  simp only [text_deprecatedParameter, List.reverse_append, List.reverse_cons, List.append_assoc, List.nil_append,
    List.reverse_nil, List.cons_append, List.cons.injEq, true_and] at htext
  obtain ⟨hname, hfront⟩ := append_cons_inj (hmark htype) (hmark htype') htext
  rw [List.reverse_inj] at hname
  simp only [List.append_cancel_left_eq, List.reverse_inj, List.append_cancel_right_eq] at hfront
  exact ⟨String.toList_inj.mp hfront, String.toList_inj.mp hname⟩

end Diagnostic

section Rule

variable {i : Index} {deprecated : List String} {owner : Option String} {m : Member} {d : Diagnostic}

theorem mem_deprecatedParameters :
    d ∈ Index.deprecatedParameters deprecated owner m
      ↔
    m.isCallable = true ∧ ∃ p ∈ m.params, ∃ name,
      (identifierTokens p.type).find? deprecated.contains = some name ∧ owner ≠ some name ∧
        d = Diagnostic.deprecatedParameter owner m.name p.label name := by
  unfold Index.deprecatedParameters
  cases hcall : m.isCallable with
  | false => simp
  | true =>
    simp only [Bool.not_true, Bool.false_eq_true, ↓reduceIte, List.mem_filterMap, true_and]
    constructor
    . rintro ⟨p, hp, hfinding⟩
      refine ⟨p, hp, ?_⟩
      split at hfinding
      . simp at hfinding
      . next name hname =>
        rw [Option.ite_none_left_eq_some, beq_iff_eq] at hfinding
        exact ⟨name, hname, hfinding.1, (Option.some.inj hfinding.2).symm⟩
    . rintro ⟨p, hp, name, hname, hother, rfl⟩
      refine ⟨p, hp, ?_⟩
      rw [hname]
      dsimp only
      rw [if_neg (by simpa using hother)]
      rfl

/--
The findings of the rule about parameters, before they are merged.
-/
def Index.parameterFindings (i : Index) : List Diagnostic :=
  i.namespaces.flatMap fun ns =>
    ns.types.flatMap (fun t => t.members.flatMap (deprecatedParameters i.deprecatedNames (some t.name))) ++
      ns.functions.flatMap (deprecatedParameters i.deprecatedNames none)

theorem mem_parameterFindings :
    d ∈ i.parameterFindings
      ↔
    ∃ owner m p name, i.HasParameter owner m p ∧ i.firstDeprecated? p = some name ∧ owner ≠ some name ∧
      d = Diagnostic.deprecatedParameter owner m.name p.label name := by
  unfold Index.parameterFindings
  simp only [List.mem_flatMap, List.mem_append, mem_deprecatedParameters]
  constructor
  . rintro ⟨ns, hns, ⟨t, ht, m, hm, hcall, p, hp, name, hfound⟩ | ⟨m, hm, hcall, p, hp, name, hfound⟩⟩
    . exact ⟨some t.name, m, p, name, ⟨hcall, hp, ns, hns, Or.inl ⟨t, ht, rfl, hm⟩⟩, hfound⟩
    . exact ⟨none, m, p, name, ⟨hcall, hp, ns, hns, Or.inr ⟨rfl, hm⟩⟩, hfound⟩
  . rintro ⟨owner, m, p, name, ⟨hcall, hp, ns, hns, ⟨t, ht, rfl, hm⟩ | ⟨rfl, hm⟩⟩, hfound⟩
    . exact ⟨ns, hns, Or.inl ⟨t, ht, m, hm, hcall, p, hp, name, hfound⟩⟩
    . exact ⟨ns, hns, Or.inr ⟨m, hm, hcall, p, hp, name, hfound⟩⟩

theorem findings_eq (i : Index) :
    i.findings = Diagnostic.merge [i.missingDocumentation ++ i.emptyEntryPoints ++ i.parameterFindings] :=
  rfl

theorem id_and_level_of_mem_missingDocumentation (h : d ∈ i.missingDocumentation) :
    d.id = "APG001" ∧ d.level = .info := by
  obtain ⟨e, -, hfinding⟩ := List.mem_filterMap.mp h
  rw [Option.ite_none_right_eq_some] at hfinding
  rw [← Option.some.inj hfinding.2]
  exact ⟨rfl, rfl⟩

theorem id_and_level_of_mem_emptyEntryPoints (h : d ∈ i.emptyEntryPoints) :
    d.id = "APG002" ∧ d.level = .warning := by
  obtain ⟨e, -, hfinding⟩ := List.mem_filterMap.mp h
  rw [Option.ite_none_right_eq_some] at hfinding
  rw [← Option.some.inj hfinding.2]
  exact ⟨rfl, rfl⟩

theorem id_and_level_of_mem_parameterFindings (h : d ∈ i.parameterFindings) :
    d.id = "APG003" ∧ d.level = .warning := by
  obtain ⟨owner, m, p, name, -, -, -, rfl⟩ := mem_parameterFindings.mp h
  exact ⟨rfl, rfl⟩

/--
What a rule reports has the rule's own severity, so a finding is known by its key.
-/
theorem level_of_mem_rules (h : d ∈ i.missingDocumentation ++ i.emptyEntryPoints ++ i.parameterFindings) :
    d.level = if d.id = "APG001" then .info else .warning := by
  rw [List.mem_append, List.mem_append] at h
  rcases h with (h | h) | h
  . obtain ⟨hid, hlevel⟩ := id_and_level_of_mem_missingDocumentation h
    rw [hid, hlevel, if_pos rfl]
  . obtain ⟨hid, hlevel⟩ := id_and_level_of_mem_emptyEntryPoints h
    rw [hid, hlevel, if_neg (by decide)]
  . obtain ⟨hid, hlevel⟩ := id_and_level_of_mem_parameterFindings h
    rw [hid, hlevel, if_neg (by decide)]

theorem mem_findings :
    d ∈ i.findings ↔ d ∈ i.missingDocumentation ++ i.emptyEntryPoints ++ i.parameterFindings := by
  have hkept : ∀ {found}, found ∈ i.findings →
      found ∈ i.missingDocumentation ++ i.emptyEntryPoints ++ i.parameterFindings := by
    intro found hfound
    rw [findings_eq] at hfound
    simpa using (Diagnostic.mergeFrom_sublist _).subset hfound
  refine ⟨hkept, ?_⟩
  intro h
  have hflat : d ∈ [i.missingDocumentation ++ i.emptyEntryPoints ++ i.parameterFindings].flatten := by
    simpa using h
  obtain ⟨found, hfound, hkey⟩ := Diagnostic.exists_mem_merge hflat
  rw [← findings_eq] at hfound
  obtain ⟨hid, htext, htype, hmember⟩ : found.id = d.id ∧ found.text = d.text ∧ found.targetType = d.targetType ∧
      found.targetMember = d.targetMember := by
    simpa only [Diagnostic.key, Prod.mk.injEq] using hkey
  have hlevel : found.level = d.level := by
    rw [level_of_mem_rules (hkept hfound), level_of_mem_rules h, hid]
  have hsame : found = d := by
    cases found
    cases d
    simp_all only
  exact hsame ▸ hfound

theorem mem_findings_and_id : d ∈ i.findings ∧ d.id = "APG003" ↔ d ∈ i.parameterFindings := by
  rw [mem_findings, List.mem_append, List.mem_append]
  constructor
  . rintro ⟨(h | h) | h, hid⟩
    . rw [(id_and_level_of_mem_missingDocumentation h).1] at hid
      exact absurd hid (by decide)
    . rw [(id_and_level_of_mem_emptyEntryPoints h).1] at hid
      exact absurd hid (by decide)
    . exact h
  . intro h
    exact ⟨Or.inr h, (id_and_level_of_mem_parameterFindings h).1⟩

end Rule

namespace Index

variable {i : Index} {owner : Option String} {p : Param} {name : String}

theorem mem_deprecatedNames : name ∈ i.deprecatedNames ↔ ∃ d ∈ i.types, d.2.deprecated = true ∧ d.2.name = name := by
  simp only [deprecatedNames, List.mem_map, List.mem_filter, and_assoc]

theorem mem_of_firstDeprecated? (h : i.firstDeprecated? p = some name) :
    name ∈ identifierTokens p.type ∧ ∃ d ∈ i.types, d.2.deprecated = true ∧ d.2.name = name := by
  refine ⟨List.mem_of_find?_eq_some h, ?_⟩
  rw [← mem_deprecatedNames]
  exact List.contains_iff_mem.mp (List.find?_some h)

theorem exists_firstDeprecated? (hmem : name ∈ identifierTokens p.type) (hname : name ∈ i.deprecatedNames) :
    ∃ first, i.firstDeprecated? p = some first := by
  rw [← Option.isSome_iff_exists, firstDeprecated?, List.find?_isSome]
  exact ⟨name, hmem, List.contains_iff_mem.mpr hname⟩

/--
The rule speaks about a parameter if its text mentions a deprecated type at all, and the owner is not the first.
-/
theorem firstDeprecated?_foreign_iff :
    (∃ name, i.firstDeprecated? p = some name ∧ owner ≠ some name)
      ↔
    (∃ name, i.MentionsDeprecated owner p name) ∧ ¬ i.StartsWithOwner owner p := by
  constructor
  . rintro ⟨name, hfirst, hforeign⟩
    obtain ⟨hmem, hdeprecated⟩ := mem_of_firstDeprecated? hfirst
    refine ⟨⟨name, hmem, hdeprecated, hforeign⟩, ?_⟩
    rintro ⟨name', rfl, hfirst'⟩
    exact hforeign (hfirst'.symm.trans hfirst)
  . rintro ⟨⟨name, hmem, hdeprecated, -⟩, hstart⟩
    obtain ⟨first, hfirst⟩ := exists_firstDeprecated? hmem (mem_deprecatedNames.mpr hdeprecated)
    refine ⟨first, hfirst, ?_⟩
    rintro rfl
    exact hstart ⟨first, rfl, hfirst⟩

theorem reportsParameter_iff {member label : String} :
    i.ReportsParameter owner member label
      ↔
    ∃ m p, i.HasParameter owner m p ∧ m.name = member ∧ p.label = label ∧
      (∃ name, i.MentionsDeprecated owner p name) ∧ ¬ i.StartsWithOwner owner p := by
  simp only [← firstDeprecated?_foreign_iff]
  constructor
  . rintro ⟨type, htype, hfinding⟩
    obtain ⟨owner', m, p, name, hp, hfirst, hforeign, heq⟩ :=
      mem_parameterFindings.mp (mem_findings_and_id.mp ⟨hfinding, rfl⟩)
    obtain rfl : owner = owner' := congrArg Diagnostic.targetType heq
    obtain rfl : member = m.name := Option.some.inj (congrArg Diagnostic.targetMember heq)
    have hname := isIdentifier_of_mem_identifierTokens (mem_of_firstDeprecated? hfirst).1
    obtain ⟨hlabel, -⟩ := Diagnostic.deprecatedParameter_inj htype hname heq
    exact ⟨m, p, hp, rfl, hlabel.symm, name, hfirst, hforeign⟩
  . rintro ⟨m, p, hp, rfl, rfl, name, hfirst, hforeign⟩
    have hname := isIdentifier_of_mem_identifierTokens (mem_of_firstDeprecated? hfirst).1
    exact ⟨name, hname, (mem_findings_and_id.mpr
      (mem_parameterFindings.mpr ⟨owner, m, p, name, hp, hfirst, hforeign, rfl⟩)).1⟩

theorem deprecatedParameter_reported_iff_not_behind_owner (i : Index) :
    (∀ d, d ∈ i.findings ∧ d.id = "APG003"
      ↔ ∃ owner m p name, i.HasParameter owner m p ∧ i.firstDeprecated? p = some name ∧ owner ≠ some name ∧
          d = Diagnostic.deprecatedParameter owner m.name p.label name) ∧
    (∀ owner member label, i.ReportsParameter owner member label
      ↔ ∃ m p, i.HasParameter owner m p ∧ m.name = member ∧ p.label = label ∧
          (∃ name, i.MentionsDeprecated owner p name) ∧ ¬ i.StartsWithOwner owner p) ∧
    ∀ owner m p, i.HasParameter owner m p →
      (∀ m' p', i.HasParameter owner m' p' → m'.name = m.name → p'.label = p.label → p'.type = p.type) →
      (i.ReportsParameter owner m.name p.label
        ↔ (∃ name, i.MentionsDeprecated owner p name) ∧ ¬ i.StartsWithOwner owner p) := by
  refine ⟨fun d => mem_findings_and_id.trans mem_parameterFindings, fun _ _ _ => reportsParameter_iff, ?_⟩
  intro owner m p hp halone
  rw [reportsParameter_iff, ← firstDeprecated?_foreign_iff]
  constructor
  . rintro ⟨m', p', hp', hmember, hlabel, hreported⟩
    rw [← firstDeprecated?_foreign_iff] at hreported
    unfold firstDeprecated? at hreported ⊢
    rwa [halone m' p' hp' hmember hlabel] at hreported
  . intro hreported
    exact ⟨m, p, hp, rfl, rfl, firstDeprecated?_foreign_iff.mp hreported⟩

end Index

namespace MergedLegacy

def other : Param := { name := some "other", type := "dict[Legacy, Retired]" }

def merge : Member := { name := "merge", kind := .method, sig := "other: dict[Legacy, Retired]", params := [other] }

def legacy : TypeEntry :=
  { name := "Legacy", kind := .classType, doc := some "Old.", deprecated := true, members := [merge] }

def retired : TypeEntry := { name := "Retired", kind := .classType, doc := some "Gone.", deprecated := true }

/--
An index with two deprecated types. An operation of the first takes a parameter whose text mentions both.
-/
def index : Index where
  package := "store"
  namespaces := [{ name := "store", types := [legacy, retired] }]

theorem retired_not_reported :
    index.HasParameter (some "Legacy") merge other ∧
    index.MentionsDeprecated (some "Legacy") other "Retired" ∧
    ¬ index.ReportsParameter (some "Legacy") "merge" "other" := by
  have hfindings : index.findings = [] := by decide +kernel
  refine ⟨⟨rfl, by decide, _, List.mem_singleton_self _, Or.inl ⟨legacy, by decide, rfl, by decide⟩⟩,
    ⟨by decide +kernel, ⟨("store", retired), by decide, rfl, rfl⟩, by decide⟩, ?_⟩
  rintro ⟨type, -, hfinding⟩
  rw [hfindings] at hfinding
  simp at hfinding

end MergedLegacy

end ApiSurface
