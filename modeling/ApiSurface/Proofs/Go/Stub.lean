import Mathlib.Data.List.Basic
import Mathlib.Data.List.Infix
import ApiSurface.Go.Stub
import ApiSurface.Proofs.Lists
import ApiSurface.Proofs.Go.Constructors

/-!
This module contains proofs about the stubs of Go packages: which members of a type are shown in its lines, by their kind,
and where the lines of a type stand in the stub file.
-/

namespace ApiSurface.Go.Stub

/--
What a caller sees of a member: its name, parameters and results.
-/
def signatureText (m : Member) : String :=
  m.name ++ "(" ++ m.sig ++ ")" ++ retText m

/--
The type of a member as a function.
-/
def functionType (m : Member) : String :=
  "func(" ++ m.sig ++ ")" ++ retText m

/--
The member by which the functions of a function type are called.
-/
def invoke? (t : TypeEntry) : Option Member :=
  t.members.find? (·.name == "Invoke")

/--
The line of a constructor, which is a function of its package.
-/
def constructorLine (m : Member) : String :=
  "func " ++ signatureText m

/--
The line of a method with its type as receiver.
-/
def methodLine (t : TypeEntry) (m : Member) : String :=
  "func (" ++ t.name ++ ") " ++ signatureText m

/--
The body of an interface with some members: the embedded interfaces, and then the members.
-/
def bodyLines (t : TypeEntry) (members : List Member) : List String :=
  t.interfaces.map ("    " ++ ·) ++ members.map (fun m => "    " ++ signatureText m)

/--
The line that opens an interface.
-/
def interfaceHeader (t : TypeEntry) : String :=
  "type " ++ t.name ++ " interface \x7b"

/--
The declaration of an interface with some members.
-/
def interfaceLines (t : TypeEntry) (members : List Member) : List String :=
  interfaceHeader t :: (bodyLines t members ++ ["\x7d"])

/--
The declaration of a function type with the parameters and results of a member.
-/
def delegateLine (t : TypeEntry) (m : Member) : String :=
  "type " ++ t.name ++ " " ++ functionType m

/--
The lines show the members of a type according to their kind.
-/
structure ShowsByKind (t : TypeEntry) (block : List String) : Prop where
  /-- A function type is declared with the parameters and results that its functions are called with. -/
  invoke : t.kind = .delegate → ∀ m ∈ invoke? t, delegateLine t m ∈ block
  /-- The body of an interface has the embedded interfaces and all members that are not constructors. -/
  body : t.kind = .interface → interfaceLines t (t.members.filter (·.kind ≠ .constructor)) <:+: block
  /-- Constructors are functions. -/
  constructors : ∀ m ∈ t.members, m.kind = .constructor → constructorLine m ∈ block
  /-- Methods have a receiver, except in an interface and for the call of a function type. -/
  methods : t.kind ≠ .interface → ∀ m ∈ t.members, m.kind = .method → ¬ (t.kind = .delegate ∧ m.name = "Invoke") →
    methodLine t m ∈ block

variable {t : TypeEntry} {m : Member} {line : String}

theorem ShowsByKind.mono {block block' : List String} (h : ShowsByKind t block) (hsub : block <:+: block') :
    ShowsByKind t block' where
  invoke hkind m hm := hsub.subset (h.invoke hkind m hm)
  body hkind := (h.body hkind).trans hsub
  constructors m hm hkind := hsub.subset (h.constructors m hm hkind)
  methods hkind m hm hmethod hinvoke := hsub.subset (h.methods hkind m hm hmethod hinvoke)

section Initials

/--
The first character of a line.
-/
def initial (line : String) : Option Char :=
  line.toList.head?

theorem initial_append {c : Char} {front : String} (h : initial front = some c) (back : String) :
    initial (front ++ back) = some c := by
  unfold initial at *
  rw [String.toList_append, List.head?_append, h]
  rfl

theorem initial_constructorLine (m : Member) : initial (constructorLine m) = some 'f' :=
  initial_append rfl _

theorem initial_methodLine (t : TypeEntry) (m : Member) : initial (methodLine t m) = some 'f' := by
  unfold methodLine
  rw [String.append_assoc, String.append_assoc]
  exact initial_append rfl _

theorem initial_interfaceHeader (t : TypeEntry) : initial (interfaceHeader t) = some 't' := by
  unfold interfaceHeader
  rw [String.append_assoc]
  exact initial_append rfl _

theorem initial_delegateLine (t : TypeEntry) (m : Member) : initial (delegateLine t m) = some 't' := by
  unfold delegateLine
  rw [String.append_assoc, String.append_assoc]
  exact initial_append rfl _

theorem initial_of_mem_docLines {doc deprecated : Option String} (h : line ∈ docLines doc deprecated) :
    initial line = some '/' := by
  unfold docLines at h
  rw [List.mem_append, List.mem_map, List.mem_map] at h
  rcases h with ⟨text, -, rfl⟩ | ⟨text, -, rfl⟩ <;> exact initial_append rfl text

/--
The lines behind the declaration of an interface or a function type.
-/
def closingLines (t : TypeEntry) : List String :=
  valueLines t ++ [""]

theorem initial_of_mem_closingLines (h : line ∈ closingLines t) :
    initial line ∈ [none, some 'c', some ' ', some ')'] := by
  unfold closingLines valueLines at h
  rw [List.mem_append, List.mem_singleton] at h
  rcases h with h | rfl
  . split at h
    . contradiction
    . simp only [List.mem_append, List.mem_singleton, List.mem_map] at h
      rcases h with (rfl | ⟨value, -, rfl⟩) | rfl
      . decide
      . have hvalue : initial ("    " ++ value ++ " " ++ t.name ++ " = ...") = some ' ' := by
          simp only [String.append_assoc]
          exact initial_append rfl _
        rw [hvalue]
        decide
      . decide
  . decide

theorem initial_of_mem_bodyLines {members : List Member} (h : line ∈ bodyLines t members) :
    initial line = some ' ' := by
  rw [bodyLines, List.mem_append, List.mem_map, List.mem_map] at h
  rcases h with ⟨text, -, rfl⟩ | ⟨m, -, rfl⟩ <;> exact initial_append rfl _

end Initials

section Interfaces

variable (hkind : t.kind = .interface)

include hkind

theorem typeLines_interface :
    typeLines t = docLines t.doc (deprecation t) ++ (interfaceLines t t.members ++ closingLines t) := by
  simp [typeLines, declarationLines, hkind, interfaceLines, interfaceHeader, bodyLines, signatureText, closingLines,
    String.append_assoc]

/--
An interface has one body in its lines.
-/
theorem interfaceLines_infix_iff (members : List Member) :
    interfaceLines t members <:+: typeLines t ↔ bodyLines t members = bodyLines t t.members := by
  rw [typeLines_interface hkind]
  constructor
  . rintro ⟨before, behind, heq⟩
    have hdoc : interfaceHeader t ∉ docLines t.doc (deprecation t) := by
      intro hmem
      simpa [initial_interfaceHeader] using initial_of_mem_docLines hmem
    have hlater : interfaceHeader t ∉ bodyLines t t.members ++ "\x7d" :: closingLines t := by
      intro hmem
      rw [List.mem_append, List.mem_cons] at hmem
      rcases hmem with hmem | hbrace | hmem
      . simpa [initial_interfaceHeader] using initial_of_mem_bodyLines hmem
      . exact absurd (congrArg initial hbrace) (by rw [initial_interfaceHeader]; decide)
      . simpa [initial_interfaceHeader] using initial_of_mem_closingLines hmem
    have hbrace : ∀ members, "\x7d" ∉ bodyLines t members := by
      intro members hmem
      exact absurd (initial_of_mem_bodyLines hmem) (by decide)
    -- no other line begins like the header, and none of a body like the closing brace
    simp only [interfaceLines, List.append_assoc, List.cons_append, List.nil_append] at heq
    obtain ⟨-, -, hbody⟩ := (List.append_cons_inj_of_notMem hdoc hlater).mp heq.symm
    exact (append_cons_inj (hbrace t.members) (hbrace members) hbody).1.symm
  . intro heq
    refine ⟨docLines t.doc (deprecation t), closingLines t, ?_⟩
    rw [interfaceLines, interfaceLines, heq, List.append_assoc]

/--
The body of an interface leaves out its constructors exactly if it has none.
-/
theorem interfaceLines_filter_infix_iff :
    interfaceLines t (t.members.filter (·.kind ≠ .constructor)) <:+: typeLines t ↔
      ∀ m ∈ t.members, m.kind ≠ .constructor := by
  rw [interfaceLines_infix_iff hkind]
  constructor
  . intro heq m hm
    have hlength := congrArg List.length (List.append_cancel_left heq)
    rw [List.length_map, List.length_map, List.length_filter_eq_length_iff] at hlength
    simpa using hlength m hm
  . intro hnone
    rw [List.filter_eq_self.mpr (by simpa using hnone)]

end Interfaces

section Delegates

variable (hkind : t.kind = .delegate)

include hkind

theorem typeLines_delegate :
    typeLines t = docLines t.doc (deprecation t) ++ (declarationLines t ++ closingLines t) := by
  simp [typeLines, hkind, closingLines]

theorem declarationLines_delegate {first : Member} (hfirst : t.members.head? = some first) :
    declarationLines t = [delegateLine t first] := by
  simp only [declarationLines, hkind, hfirst, delegateLine, functionType]
  rw [List.singleton_inj, ← String.toList_inj]
  simp

theorem initial_of_mem_declarationLines (h : line ∈ declarationLines t) : initial line = some 't' := by
  cases hfirst : t.members.head? with
  | none =>
    simp only [declarationLines, hkind, hfirst, List.mem_singleton] at h
    obtain rfl := h
    rw [String.append_assoc]
    exact initial_append rfl _
  | some first =>
    rw [declarationLines_delegate hkind hfirst, List.mem_singleton] at h
    obtain rfl := h
    exact initial_delegateLine t first

theorem delegateLine_mem_iff : delegateLine t m ∈ typeLines t ↔ delegateLine t m ∈ declarationLines t := by
  rw [typeLines_delegate hkind, List.mem_append, List.mem_append]
  constructor
  . rintro (hmem | hmem | hmem)
    . simpa [initial_delegateLine] using initial_of_mem_docLines hmem
    . exact hmem
    . simpa [initial_delegateLine] using initial_of_mem_closingLines hmem
  . exact fun hmem => Or.inr (Or.inl hmem)

/--
A function type is declared as its functions are called exactly if its first member is called so.
-/
theorem invokes_iff :
    (∀ m ∈ invoke? t, delegateLine t m ∈ typeLines t) ↔
      ∀ first ∈ t.members.head?, ∀ m ∈ invoke? t, functionType first = functionType m := by
  cases hfirst : t.members.head? with
  | none =>
    have hnil : t.members = [] := List.head?_eq_none_iff.mp hfirst
    simp [invoke?, hnil]
  | some first =>
    simp only [delegateLine_mem_iff hkind, declarationLines_delegate hkind hfirst, List.mem_singleton, Option.mem_some,
      forall_eq']
    constructor
    . intro h m hm
      exact ((String.append_right_inj _).mp (h m hm)).symm
    . intro h m hm
      rw [delegateLine, delegateLine, h m hm]

end Delegates

section Functions

/--
Interfaces and function types have no functions in their lines.
-/
theorem not_mem_of_initial (hkind : t.kind = .interface ∨ t.kind = .delegate) (hline : initial line = some 'f') :
    line ∉ typeLines t := by
  intro hmem
  rcases hkind with hkind | hkind
  . rw [typeLines_interface hkind, interfaceLines] at hmem
    simp only [List.mem_append, List.mem_cons, List.not_mem_nil, or_false] at hmem
    rcases hmem with hmem | (rfl | hmem | rfl) | hmem
    . simpa [hline] using initial_of_mem_docLines hmem
    . simp [initial_interfaceHeader] at hline
    . simpa [hline] using initial_of_mem_bodyLines hmem
    . exact absurd hline (by decide)
    . simpa [hline] using initial_of_mem_closingLines hmem
  . rw [typeLines_delegate hkind, List.mem_append, List.mem_append] at hmem
    rcases hmem with hmem | hmem | hmem
    . simpa [hline] using initial_of_mem_docLines hmem
    . simpa [hline] using initial_of_mem_declarationLines hkind hmem
    . simpa [hline] using initial_of_mem_closingLines hmem

variable (hkind : ¬ (t.kind = .interface ∨ t.kind = .delegate))

include hkind

theorem mem_typeLines_of_callable (hm : m ∈ t.members) (hcall : m.isCallable = true) (hline : line ∈ memberLines t m) :
    line ∈ typeLines t := by
  have hmem : line ∈ t.callables.flatMap (memberLines t) :=
    List.mem_flatMap.mpr ⟨m, List.mem_filter.mpr ⟨hm, hcall⟩, hline⟩
  unfold typeLines
  rw [if_neg (by simpa using hkind)]
  exact List.mem_append_left _ (List.mem_append_right _ hmem)

theorem constructorLine_mem (hm : m ∈ t.members) (hctor : m.kind = .constructor) : constructorLine m ∈ typeLines t := by
  apply mem_typeLines_of_callable hkind hm
  . rw [Member.isCallable, hctor]
    rfl
  . simp [memberLines, hctor, constructorLine, signatureText]

theorem methodLine_mem (hm : m ∈ t.members) (hmethod : m.kind = .method) : methodLine t m ∈ typeLines t := by
  apply mem_typeLines_of_callable hkind hm
  . rw [Member.isCallable, hmethod]
    rfl
  . simp [memberLines, hmethod, methodLine, signatureText]

end Functions

/--
Nothing of the type is lost or mistaken in its lines: interfaces and function types have no constructors, and a function
type has no methods but the one that it is declared with.
-/
structure SuitsItsKind (t : TypeEntry) : Prop where
  noConstructors : t.kind = .interface ∨ t.kind = .delegate → ∀ m ∈ t.members, m.kind ≠ .constructor
  noMethods : t.kind = .delegate → ∀ m ∈ t.members, m.kind = .method → m.name = "Invoke"
  invokeLeads : t.kind = .delegate → ∀ first ∈ t.members.head?, ∀ m ∈ invoke? t, functionType first = functionType m

theorem showsByKind_iff (t : TypeEntry) : ShowsByKind t (typeLines t) ↔ SuitsItsKind t := by
  constructor
  . intro h
    constructor
    . rintro hkind m hm hctor
      exact not_mem_of_initial hkind (initial_constructorLine m) (h.constructors m hm hctor)
    . intro hkind m hm hmethod
      by_contra hname
      exact not_mem_of_initial (Or.inr hkind) (initial_methodLine t m)
        (h.methods (by simp [hkind]) m hm hmethod (fun hinvoke => hname hinvoke.2))
    . intro hkind
      exact (invokes_iff hkind).mp (h.invoke hkind)
  . intro h
    constructor
    . intro hkind
      exact (invokes_iff hkind).mpr (h.invokeLeads hkind)
    . intro hkind
      exact (interfaceLines_filter_infix_iff hkind).mpr (h.noConstructors (Or.inl hkind))
    . intro m hm hctor
      exact constructorLine_mem (fun hkind => h.noConstructors hkind m hm hctor) hm hctor
    . intro hkind m hm hmethod hinvoke
      have hother : ¬ (t.kind = .interface ∨ t.kind = .delegate) := by
        rintro (hinterface | hdelegate)
        . exact hkind hinterface
        . exact hinvoke ⟨hdelegate, h.noMethods hdelegate m hm hmethod⟩
      exact methodLine_mem hother hm hmethod

theorem typeLines_infix_lines {i : Index} {ns : Namespace} (hns : ns ∈ i.namespaces) (ht : t ∈ ns.types) :
    typeLines t <:+: lines i := by
  have htype : typeLines t <:+: ns.types.flatMap typeLines :=
    List.infix_of_mem_flatten (List.mem_map_of_mem ht)
  have hnamespace : namespaceLines ns <:+: i.namespaces.flatMap namespaceLines :=
    List.infix_of_mem_flatten (List.mem_map_of_mem hns)
  have hwithin : ns.types.flatMap typeLines <:+: namespaceLines ns := List.infix_append _ _ _
  exact (htype.trans hwithin).trans (List.infix_cons hnamespace)

/--
The lines of every type of an index stand together in the stub file. They show its members according to their kind exactly
if the type suits its own kind.
-/
theorem shown_by_kind_iff_suits (i : Index) (ns : Namespace) (hns : ns ∈ i.namespaces) (t : TypeEntry)
    (ht : t ∈ ns.types) :
    typeLines t <:+: lines i ∧
    (ShowsByKind t (typeLines t) ↔ SuitsItsKind t) ∧
    (SuitsItsKind t → ShowsByKind t (lines i)) := by
  have hpart : typeLines t <:+: lines i := typeLines_infix_lines hns ht
  refine ⟨hpart, showsByKind_iff t, ?_⟩
  intro h
  exact ((showsByKind_iff t).mpr h).mono hpart

/--
A function that constructs an interface or a function type of its package is nowhere in the lines of that type.
-/
theorem not_showsByKind_of_constructs {ns : Namespace} {f : Member} (info : PackageInfo) (hf : f ∈ ns.functions)
    (ht : t ∈ ns.types) (hconstructs : Constructs f t.name) (hkind : t.kind = .interface ∨ t.kind = .delegate) :
    ∃ t' ∈ (settled info ns).types, t'.name = t.name ∧ ¬ ShowsByKind t' (typeLines t') := by
  refine ⟨_, List.mem_map_of_mem ht, rfl, ?_⟩
  rw [showsByKind_iff]
  intro h
  have hctor : asConstructor f ∈ constructorsOf t.name ns.functions :=
    List.mem_map_of_mem (List.mem_filter.mpr ⟨hf, by simpa using hconstructs⟩)
  refine h.noConstructors ?_ (asConstructor f) (List.mem_append_left _ hctor) rfl
  rcases hkind with hkind | hkind <;> simp [hkind]

namespace Router

def newHandler : Member :=
  { name := "NewHandler", kind := .constructor, sig := "prefix string", ret := some "Handler", isStatic := true }

def invoke : Member :=
  { name := "Invoke", kind := .method, sig := "path string", ret := some "error" }

def describe : Member :=
  { name := "Describe", kind := .method, ret := some "string" }

/--
A type of functions with a constructor and a method of its own.
-/
def handler : TypeEntry :=
  { name := "Handler", kind := .delegate, members := [newHandler, invoke, describe] }

def newStore : Member :=
  { name := "NewStore", kind := .constructor, ret := some "Store", isStatic := true }

/--
An interface with a constructor.
-/
def store : TypeEntry :=
  { name := "Store", kind := .interface
    members := [newStore, { name := "Save", kind := .method, sig := "name string", ret := some "error" }] }

def newMux : Member :=
  { name := "NewMux", kind := .constructor, ret := some "*Mux", isStatic := true }

def mux : TypeEntry :=
  { name := "Mux", kind := .struct, members := [newMux, { name := "Handle", kind := .method, sig := "h Handler" }] }

def package : Namespace :=
  { name := "router", types := [handler, store, mux] }

def index : Index :=
  { package := "router", namespaces := [package] }

theorem lines_index :
    lines index =
      ["// router - Public API Surface", "", "// Package: router", "",
       "type Handler func(prefix string) Handler", "",
       "type Store interface \x7b", "    NewStore() Store", "    Save(name string) error", "\x7d", "",
       "type Mux struct \x7b", "\x7d", "func NewMux() *Mux", "func (Mux) Handle(h Handler)", ""] := by
  decide +kernel

theorem mux_shown :
    package ∈ index.namespaces ∧ mux ∈ package.types ∧ SuitsItsKind mux ∧ constructorLine newMux ∈ lines index := by
  have hpackage : package ∈ index.namespaces := List.mem_singleton_self package
  have hmux : mux ∈ package.types := by decide
  have hsuits : SuitsItsKind mux := ⟨by decide, by decide, by decide⟩
  obtain ⟨-, -, hshown⟩ := shown_by_kind_iff_suits index package hpackage mux hmux
  exact ⟨hpackage, hmux, hsuits, (hshown hsuits).constructors newMux (by decide) rfl⟩

/--
The function type is declared as its constructor, which is lost, as is its method; the constructor of the interface is in
its body.
-/
theorem handler_and_store_not_shown :
    handler ∈ package.types ∧ store ∈ package.types ∧
    delegateLine handler invoke ∉ lines index ∧
    constructorLine newHandler ∉ lines index ∧
    methodLine handler describe ∉ lines index ∧
    ¬ ShowsByKind handler (lines index) ∧
    ¬ ShowsByKind store (lines index) := by
  have hinvoke : delegateLine handler invoke ∉ lines index := by
    rw [lines_index]
    decide
  refine ⟨by decide, by decide, hinvoke, ?_, ?_, ?_, ?_⟩
  . rw [lines_index]
    decide
  . rw [lines_index]
    decide
  . intro h
    exact hinvoke (h.invoke rfl invoke rfl)
  . intro h
    have hbody := h.body rfl
    rw [lines_index] at hbody
    revert hbody
    decide

end Router

end ApiSurface.Go.Stub
