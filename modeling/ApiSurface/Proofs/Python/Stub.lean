import Mathlib.Data.List.Basic
import Mathlib.Data.List.Infix
import Mathlib.Data.List.Nodup
import ApiSurface.Python.Stub

/-!
This module contains proofs about the overload marks in the stubs of Python packages: which definitions of functions and
methods stand directly behind one.
-/

namespace ApiSurface.Python.Stub

/--
The line that marks the definition behind it as one of several.
-/
def overloadMark (indent : String) : String :=
  indent ++ "@overload"

/--
The definition of a member follows some lines of a stub, with an overload mark on it or without one.
-/
inductive Shown (ls front : List String) (indent : String) (m : Member) (method : Bool) : Bool → Prop where
  | marked (h : front ++ overloadMark indent :: defLines indent m method <+: ls) :
    Shown ls front indent m method true
  | plain (h : front ++ defLines indent m method <+: ls) (hfront : front.getLast? ≠ some (overloadMark indent)) :
    Shown ls front indent m method false

/--
The lines of a stub down to the functions of a namespace that stand before another one.
-/
def functionFront (i : Index) (earlier : List Namespace) (ns : Namespace) (before : List Member) : List String :=
  lines { i with
    namespaces := earlier ++ [{ ns with types := [], functions := before }]
    dependencies := [] }

/--
The lines of a class in front of its members.
-/
def headLines (t : TypeEntry) : List String :=
  classHeader t ::
    ((match t.doc with
      | some doc => ["    \"\"\"" ++ doc ++ "\"\"\""]
      | none => []) ++
      t.values.map (fun v => "    " ++ v ++ " = ..."))

/--
The lines of a stub down to the members of a class that stand before another one.
-/
def memberFront (i : Index) (earlier : List Namespace) (ns : Namespace) (types : List TypeEntry) (t : TypeEntry)
    (before : List Member) : List String :=
  lines { i with
    namespaces := earlier ++ [{ ns with types := types }]
    dependencies := [] } ++ headLines t ++ before.flatMap (memberLines t)

/--
Several of the callables of a scope have the name.
-/
def Repeated (scope : List Member) (name : String) : Prop :=
  2 ≤ (scope.map (·.name)).count name

instance (scope : List Member) (name : String) : Decidable (Repeated scope name) :=
  inferInstanceAs (Decidable (_ ≤ _))

/--
Every function of an index is defined in its stub, with a mark exactly if it is to be marked among those before and
behind it.
-/
def MarksFunctions (i : Index) (toMark : List Member → Member → List Member → Bool) : Prop :=
  ∀ earlier ns later before f behind, i.namespaces = earlier ++ ns :: later → ns.functions = before ++ f :: behind →
    Shown (lines i) (functionFront i earlier ns before) "" f false (toMark before f behind)

/--
Every callable member of a class is defined in its stub, with a mark exactly if its name is repeated.
-/
def MarksMembers (i : Index) : Prop :=
  ∀ earlier ns later types t types' before m behind, i.namespaces = earlier ++ ns :: later →
    ns.types = types ++ t :: types' → t.members = before ++ m :: behind → m.isCallable = true →
      Shown (lines i) (memberFront i earlier ns types t before) "    " m true (decide (Repeated t.callables m.name))

/--
A function is to be marked if its name is repeated among all functions of its namespace.
-/
def repeatedAround (before : List Member) (f : Member) (behind : List Member) : Bool :=
  decide (Repeated (before ++ f :: behind) f.name)

/--
A function is marked if its name occurs before it.
-/
def repeatedBefore (before : List Member) (f : Member) (_ : List Member) : Bool :=
  decide (f.name ∈ before.map (·.name))

variable {i : Index} {ns : Namespace} {t : TypeEntry} {m : Member} {method : Bool} {indent line : String}
  {ls front xs ys : List String} {fs before behind : List Member} {c : Char}

section Marks

variable (hindent : ∀ c ∈ indent.toList, c = ' ')

include hindent

theorem ne_overloadMark (hc : c ∈ line.toList) (hsign : c ∈ [':', '\"', '=']) : line ≠ overloadMark indent := by
  have hother : ∀ c ∈ [':', '\"', '='], c ≠ ' ' ∧ c ∉ "@overload".toList := by simp
  intro heq
  rw [heq, overloadMark, String.toList_append, List.mem_append] at hc
  cases hc with
  | inl hc => exact (hother c hsign).1 (hindent c hc)
  | inr hc => exact (hother c hsign).2 hc

theorem overloadMark_notMem_defLines : overloadMark indent ∉ defLines indent m method := by
  intro hmem
  unfold defLines at hmem
  simp only [List.mem_append, List.mem_singleton] at hmem
  rcases hmem with ((hmem | hmem) | hmem) | hmem
  . split at hmem
    . rw [List.mem_singleton, overloadMark, String.append_right_inj] at hmem
      exact absurd hmem (by decide)
    . contradiction
  . split at hmem
    . rw [List.mem_singleton, overloadMark, String.append_right_inj] at hmem
      exact absurd hmem (by decide)
    . contradiction
  . apply ne_overloadMark hindent _ _ hmem.symm
    . exact ':'
    . simp
    . decide
  . split at hmem
    . apply ne_overloadMark hindent _ _ (List.mem_singleton.mp hmem).symm
      . exact '\"'
      . simp
      . decide
    . contradiction

/--
Whether a definition has a mark is determined by where it stands.
-/
theorem Shown.unique {b b' : Bool} (h : Shown ls front indent m method b) (h' : Shown ls front indent m method b') :
    b = b' := by
  have hmixed : front ++ overloadMark indent :: defLines indent m method <+: ls →
      ¬ front ++ defLines indent m method <+: ls := by
    rintro ⟨rest, rfl⟩ ⟨rest', heq⟩
    rw [List.append_assoc, List.append_assoc, List.append_cancel_left_eq] at heq
    have hne : defLines indent m method ≠ [] := by simp [defLines]
    obtain ⟨first, others, hlines⟩ := List.exists_cons_of_ne_nil hne
    rw [hlines, List.cons_append, List.cons_append, List.cons.injEq] at heq
    have hnotMem : overloadMark indent ∉ defLines indent m method := overloadMark_notMem_defLines hindent
    apply hnotMem
    rw [hlines, ← heq.1]
    apply List.mem_cons_self
  cases h with
  | marked h =>
    cases h' with
    | marked => rfl
    | plain h' => exact absurd h' (hmixed h)
  | plain h =>
    cases h' with
    | marked h' => exact absurd h (hmixed h')
    | plain => rfl

end Marks

theorem getLast?_append_ne (hne : ys ≠ []) (hmark : overloadMark indent ∉ ys) :
    (xs ++ ys).getLast? ≠ some (overloadMark indent) := by
  rw [List.getLast?_append_of_ne_nil xs hne]
  intro h
  exact hmark (List.mem_of_getLast? h)

theorem defLines_ne_nil : defLines indent m method ≠ [] := by
  simp [defLines]

section Namespaces

theorem functionFront_eq (i : Index) (earlier : List Namespace) (ns : Namespace) (before : List Member) :
    functionFront i earlier ns before = functionFront i earlier ns [] ++ functionLines [] before := by
  simp [functionFront, lines, namespaceLines, functionLines, dependencyLines]

theorem memberFront_eq (i : Index) (earlier : List Namespace) (ns : Namespace) (types : List TypeEntry) (t : TypeEntry)
    (before : List Member) :
    memberFront i earlier ns types t before =
      functionFront i earlier ns [] ++ functionLines [] ns.functions ++ types.flatMap typeLines ++
        (headLines t ++ before.flatMap (memberLines t)) := by
  simp [memberFront, functionFront, lines, namespaceLines, functionLines, dependencyLines]

theorem lines_eq {earlier later : List Namespace} (h : i.namespaces = earlier ++ ns :: later) :
    lines i =
      functionFront i earlier ns [] ++ functionLines [] ns.functions ++ ns.types.flatMap typeLines ++
        (later.flatMap namespaceLines ++ dependencyLines i.dependencies) := by
  simp [functionFront, lines, h, namespaceLines, functionLines, dependencyLines]

end Namespaces

section Functions

theorem functionLines_append (seen : List String) (xs ys : List Member) :
    functionLines seen (xs ++ ys) = functionLines seen xs ++ functionLines ((xs.map (·.name)).reverse ++ seen) ys := by
  induction xs generalizing seen with
  | nil => rfl
  | cons f xs ih => simp [functionLines, ih]

theorem functionFront_getLast? (i : Index) (earlier : List Namespace) (ns : Namespace) (before : List Member) :
    (functionFront i earlier ns before).getLast? ≠ some (overloadMark "") := by
  rw [functionFront_eq]
  cases List.eq_nil_or_concat' before with
  | inl hnil =>
    have hlast : (functionFront i earlier ns []).getLast? = some "" := by
      simp only [functionFront, lines, namespaceLines, functionLines, dependencyLines, List.filter_nil, List.append_nil,
        List.flatMap_append, List.flatMap_singleton, List.flatMap_nil]
      rw [← List.append_assoc, List.getLast?_append_of_ne_nil _ (by simp)]
      rfl
    rw [hnil, functionLines, List.append_nil, hlast]
    decide +kernel
  | inr hlast =>
    obtain ⟨front, last, rfl⟩ := hlast
    rw [functionLines_append, functionLines, functionLines, List.append_nil, ← List.append_assoc, ← List.append_assoc]
    apply getLast?_append_ne
    . apply defLines_ne_nil
    . apply overloadMark_notMem_defLines
      simp

/--
The functions of every namespace are defined one behind the other, with a mark on those whose name occurred before.
-/
theorem marksFunctions_repeatedBefore (i : Index) : MarksFunctions i repeatedBefore := by
  intro earlier ns later before f behind hns hfs
  have hlines := lines_eq hns
  have hfront := functionFront_eq i earlier ns before
  rw [hfs, functionLines_append, functionLines] at hlines
  have hseen : ((before.map Member.name).reverse ++ []).contains f.name = repeatedBefore before f behind := by
    simp [repeatedBefore]
  rw [hseen] at hlines
  cases hrepeated : repeatedBefore before f behind with
  | true =>
    apply Shown.marked
    rw [hlines, hfront, hrepeated]
    simp [overloadMark]
  | false =>
    apply Shown.plain
    . rw [hlines, hfront, hrepeated]
      simp
    . apply functionFront_getLast?

theorem repeated_iff_of_nodup (h : (fs.map (·.name)).Nodup) (name : String) : ¬ Repeated fs name := by
  unfold Repeated
  have := List.nodup_iff_count_le_one.mp h name
  omega

/--
If the names that are repeated are those that occur before, then there are no repeated names.
-/
theorem nodup_of_repeatedAround (h : ∀ before f behind, fs = before ++ f :: behind →
    repeatedAround before f behind = repeatedBefore before f behind) : (fs.map (·.name)).Nodup := by
  rw [List.nodup_iff_count_le_one]
  intro name
  by_contra hcount
  have hmem : name ∈ fs.map (·.name) := by
    rw [← List.count_pos_iff]
    omega
  -- the first function of the name has no other one before it
  obtain ⟨names, names', hnames, hfirst⟩ := List.eq_append_cons_of_mem hmem
  obtain ⟨before, rest, hfs, rfl, hrest⟩ := List.map_eq_append_iff.mp hnames
  obtain ⟨f, behind, rfl, rfl, rfl⟩ := List.map_eq_cons_iff.mp hrest
  have heq := h before f behind hfs
  have hbefore : repeatedBefore before f behind = false := by simpa [repeatedBefore] using hfirst
  rw [hbefore, repeatedAround, decide_eq_false_iff_not, ← hfs] at heq
  apply heq
  unfold Repeated
  omega

theorem marksFunctions_repeatedAround_iff (i : Index) :
    MarksFunctions i repeatedAround ↔ ∀ ns ∈ i.namespaces, (ns.functions.map (·.name)).Nodup := by
  have hbefore := marksFunctions_repeatedBefore i
  constructor
  . intro h ns hns
    obtain ⟨earlier, later, hnamespaces⟩ := List.append_of_mem hns
    apply nodup_of_repeatedAround
    intro before f behind hfs
    apply Shown.unique (by simp) (h earlier ns later before f behind hnamespaces hfs)
    apply hbefore earlier ns later before f behind hnamespaces hfs
  . intro h earlier ns later before f behind hnamespaces hfs
    have hnodup := h ns (hnamespaces ▸ List.mem_append_right _ List.mem_cons_self)
    have hshown := hbefore earlier ns later before f behind hnamespaces hfs
    have haround : repeatedAround before f behind = false := by
      simpa [repeatedAround, ← hfs] using repeated_iff_of_nodup hnodup f.name
    have hseen : repeatedBefore before f behind = false := by
      rw [hfs, List.map_append, List.map_cons, List.nodup_append] at hnodup
      rw [repeatedBefore, decide_eq_false_iff_not]
      intro hmem
      exact hnodup.2.2 _ hmem _ List.mem_cons_self rfl
    rw [hseen] at hshown
    rw [haround]
    exact hshown

end Functions

section Members

theorem blank_four : ∀ c ∈ "    ".toList, c = ' ' := by
  simp

theorem overloadMark_notMem_headLines : overloadMark "    " ∉ headLines t := by
  intro hmem
  unfold headLines at hmem
  rw [List.mem_cons, List.mem_append, List.mem_map] at hmem
  rcases hmem with hmem | hmem | ⟨value, -, hmem⟩
  . apply ne_overloadMark blank_four _ _ hmem.symm
    . exact ':'
    . unfold classHeader
      split <;> simp
    . decide
  . split at hmem
    . apply ne_overloadMark blank_four _ _ (List.mem_singleton.mp hmem).symm
      . exact '\"'
      . simp
      . decide
    . contradiction
  . apply ne_overloadMark blank_four _ _ hmem
    . exact '='
    . simp
    . decide

theorem memberLines_getLast? (t : TypeEntry) (m : Member) (xs : List String) :
    (xs ++ memberLines t m).getLast? ≠ some (overloadMark "    ") := by
  have hdef : ∀ ys, (ys ++ defLines "    " m true).getLast? ≠ some (overloadMark "    ") := by
    intro ys
    apply getLast?_append_ne defLines_ne_nil
    apply overloadMark_notMem_defLines blank_four
  unfold memberLines
  split
  . apply getLast?_append_ne
    . simp
    . intro hmem
      apply ne_overloadMark blank_four _ _ (List.mem_singleton.mp hmem).symm
      . exact ':'
      . simp
      . decide
  . rw [← List.singleton_append, ← List.append_assoc]
    apply hdef
  . rw [← List.append_assoc]
    apply hdef

theorem memberFront_getLast? (i : Index) (earlier : List Namespace) (ns : Namespace) (types : List TypeEntry)
    (t : TypeEntry) (before : List Member) :
    (memberFront i earlier ns types t before).getLast? ≠ some (overloadMark "    ") := by
  rw [memberFront_eq]
  cases List.eq_nil_or_concat' before with
  | inl hnil =>
    rw [hnil, List.flatMap_nil, List.append_nil]
    apply getLast?_append_ne
    . simp [headLines]
    . apply overloadMark_notMem_headLines
  | inr hlast =>
    obtain ⟨front, last, rfl⟩ := hlast
    rw [List.flatMap_append, List.flatMap_singleton, ← List.append_assoc, ← List.append_assoc]
    apply memberLines_getLast?

theorem isRepeated_eq (t : TypeEntry) (name : String) : isRepeated t name = decide (Repeated t.callables name) := by
  unfold isRepeated
  apply decide_eq_decide.mpr
  unfold Repeated
  rw [List.count_eq_countP, List.countP_map, List.countP_eq_length_filter]
  rfl

theorem memberLines_of_callable (h : m.isCallable = true) :
    memberLines t m =
      (if decide (Repeated t.callables m.name) then [overloadMark "    "] else []) ++ defLines "    " m true := by
  rw [← isRepeated_eq]
  unfold memberLines
  unfold Member.isCallable at h
  split
  . next hkind =>
    rw [hkind] at h
    contradiction
  . next hkind =>
    rw [hkind] at h
    contradiction
  . rfl

theorem typeLines_eq (t : TypeEntry) :
    typeLines t =
      headLines t ++ t.members.flatMap (memberLines t) ++
        ((if t.members.isEmpty && t.values.isEmpty then ["    ..."] else []) ++ [""]) := by
  cases hdoc : t.doc <;> simp [typeLines, headLines, hdoc]

/--
The callable members of every class are defined with a mark on those whose name is repeated.
-/
theorem marksMembers (i : Index) : MarksMembers i := by
  intro earlier ns later types t types' before m behind hns hts hms hcall
  have hlines := lines_eq hns
  have hfront := memberFront_eq i earlier ns types t before
  rw [hts, List.flatMap_append, List.flatMap_cons, typeLines_eq, hms, List.flatMap_append, List.flatMap_cons,
    memberLines_of_callable hcall] at hlines
  cases hrepeated : decide (Repeated t.callables m.name) with
  | true =>
    apply Shown.marked
    rw [hlines, hfront, hrepeated]
    simp
  | false =>
    apply Shown.plain
    . rw [hlines, hfront, hrepeated]
      simp
    . apply memberFront_getLast?

end Members

/--
Methods with a repeated name are all marked. Of the functions with a repeated name the first one is not, so the marks of
functions are right exactly if the functions of every namespace have distinct names.
-/
theorem marksMembers_and_marksFunctions_iff_nodup (i : Index) :
    MarksMembers i ∧ MarksFunctions i repeatedBefore ∧
    (MarksFunctions i repeatedAround ↔ ∀ ns ∈ i.namespaces, (ns.functions.map (·.name)).Nodup) :=
  ⟨marksMembers i, marksFunctions_repeatedBefore i, marksFunctions_repeatedAround_iff i⟩

namespace Files

def openPath : Member :=
  { name := "open", kind := .method, sig := "path: str", ret := some "File" }

def openDescriptor : Member :=
  { name := "open", kind := .method, sig := "fd: int", ret := some "File" }

def getByName : Member :=
  { name := "get", kind := .method, sig := "key: str", ret := some "str" }

def getByNumber : Member :=
  { name := "get", kind := .method, sig := "key: int", ret := some "str" }

/--
A module with a function and a method that have two signatures each.
-/
def package : Namespace :=
  { name := "files"
    types := [{ name := "Store", kind := .classType, members := [getByName, getByNumber] }]
    functions := [openPath, openDescriptor] }

def index : Index :=
  { package := "files", namespaces := [package] }

example : lines index =
    ["# files - Public API Surface", "", "# Module: files", "",
     "def open(path: str) -> File: ...", "@overload", "def open(fd: int) -> File: ...",
     "class Store:", "    @overload", "    def get(self, key: str) -> str: ...",
     "    @overload", "    def get(self, key: int) -> str: ...", ""] := by
  decide +kernel

/--
The first of two functions of one name has no mark.
-/
theorem openPath_not_marked :
    Repeated package.functions openPath.name ∧
    Shown (lines index) (functionFront index [] package []) "" openPath false false ∧
    ¬ MarksFunctions index repeatedAround := by
  refine ⟨by decide, ?_, ?_⟩
  . apply marksFunctions_repeatedBefore index [] package [] [] openPath [openDescriptor] rfl rfl
  . rw [marksFunctions_repeatedAround_iff]
    intro h
    exact absurd (h package (List.mem_singleton_self package)) (by decide)

end Files

end ApiSurface.Python.Stub
