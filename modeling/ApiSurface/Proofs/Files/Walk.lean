import ApiSurface.Files.Walk
import ApiSurface.Proofs.Lists

/-!
This module contains what a walk over a project depends on. A path is fixed by its text, so the walk lists the files
that it reaches in one order only: two trees with the same files at some paths give the same list of those files.
-/

namespace ApiSurface

namespace Path

/--
The names are those of files and directories: none is empty, and none has a slash in it.
-/
def Proper (p : Path) : Prop :=
  ∀ n ∈ p, n ≠ "" ∧ '/' ∉ n.toList

theorem within?_eq_some_iff {root p relative : Path} : within? root p = some relative ↔ p = root ++ relative := by
  fun_induction within? root p with
  | case1 p => simp [eq_comm]
  | case2 => simp
  | case3 d dir n p heq ih =>
    rw [beq_iff_eq] at heq
    simp [ih, heq]
  | case4 d dir n p hne =>
    rw [beq_iff_eq] at hne
    simp [Ne.symm hne]

theorem splitOn_relativeText {p : Path} (hp : p.Proper) (hne : p ≠ []) :
    (relativeText p).toList.splitOn '/' = p.map String.toList := by
  unfold relativeText
  rw [String.toList_intercalate]
  apply List.splitOn_intercalate
  . intro name hname
    obtain ⟨n, hn, rfl⟩ := List.mem_map.mp hname
    exact (hp n hn).2
  . simpa using hne

theorem relativeText_injOn {p q : Path} (hp : p.Proper) (hq : q.Proper) (hp' : p ≠ []) (hq' : q ≠ [])
    (h : relativeText p = relativeText q) : p = q := by
  have hnames : p.map String.toList = q.map String.toList := by
    rw [← splitOn_relativeText hp hp', ← splitOn_relativeText hq hq', h]
  exact List.map_injective_iff.mpr (fun _ _ => String.toList_inj.mp) hnames

end Path

namespace FileTree

/--
No path is listed twice, and the names in the paths of files are proper.
-/
structure WellFormed (t : FileTree) : Prop where
  distinct : (t.files.map (·.1) ++ t.directories).Nodup
  named : ∀ e ∈ t.files, e.1.Proper

variable {s t : FileTree} {root : Path} {excludes : List Pattern}

theorem WellFormed.mem_files_iff (h : t.WellFormed) {p : Path} {f : File} : (p, f) ∈ t.files ↔ t.file? p = some f := by
  have hdistinct := List.Nodup.of_append_left h.distinct
  unfold file?
  rw [Option.map_eq_some_iff]
  constructor
  . intro hmem
    refine ⟨(p, f), ?_, rfl⟩
    obtain ⟨e, he⟩ : ∃ e, t.files.find? (fun e => e.1 == p) = some e := by
      rw [← Option.isSome_iff_exists, List.find?_isSome]
      exact ⟨(p, f), hmem, by simp⟩
    have hpath : e.1 = p := by simpa using List.find?_some he
    rw [he, List.inj_on_of_nodup_map hdistinct (List.mem_of_find?_eq_some he) hmem hpath]
  . rintro ⟨e, he, rfl⟩
    have hpath : e.1 = p := by simpa using List.find?_some he
    rw [← hpath]
    exact List.mem_of_find?_eq_some he

/--
What a walk makes of a file: its path relative to the root, if it is reached.
-/
def reached? (root : Path) (excludes : List Pattern) (e : Path × File) : Option (Path × File) :=
  match Path.within? root e.1 with
  | some [] => none
  | some relative => if isReached excludes relative then some (relative, e.2) else none
  | none => none

theorem walk_eq (t : FileTree) (root : Path) (excludes : List Pattern) :
    t.walk root excludes
      =
    (t.files.filterMap (reached? root excludes)).mergeSort
      (fun a b => decide (a.1.relativeText ≤ b.1.relativeText)) :=
  rfl

theorem reached?_eq_some_iff {e found : Path × File} :
    reached? root excludes e = some found
      ↔
    found.1 ≠ [] ∧ isReached excludes found.1 = true ∧ e = (root ++ found.1, found.2) := by
  have hpath : ∀ relative, Path.within? root e.1 = some relative ↔ e.1 = root ++ relative :=
    fun _ => Path.within?_eq_some_iff
  constructor
  . intro h
    unfold reached? at h
    split at h
    . simp at h
    . next relative hne hwithin =>
      split at h
      . next hreached =>
        obtain rfl := Option.some.inj h
        exact ⟨hne, hreached, Prod.ext ((hpath _).mp hwithin) rfl⟩
      . simp at h
    . simp at h
  . rintro ⟨hne, hreached, rfl⟩
    have hwithin : Path.within? root (root ++ found.1) = some found.1 := (hpath _).mpr rfl
    unfold reached?
    rw [hwithin]
    split
    . next heq => exact absurd (Option.some.inj heq) hne
    . next relative _ heq =>
      obtain rfl := Option.some.inj heq
      rw [if_pos hreached]
    . next heq => simp at heq

theorem mem_walk {found : Path × File} :
    found ∈ t.walk root excludes
      ↔
    found.1 ≠ [] ∧ isReached excludes found.1 = true ∧ (root ++ found.1, found.2) ∈ t.files := by
  rw [walk_eq, List.mem_mergeSort, List.mem_filterMap]
  simp only [reached?_eq_some_iff]
  constructor
  . rintro ⟨e, hmem, hne, hreached, rfl⟩
    exact ⟨hne, hreached, hmem⟩
  . rintro ⟨hne, hreached, hmem⟩
    exact ⟨_, hmem, hne, hreached, rfl⟩

theorem pairwise_walk (t : FileTree) (root : Path) (excludes : List Pattern) :
    (t.walk root excludes).Pairwise (fun a b => a.1.relativeText ≤ b.1.relativeText) := by
  have hsorts : SortsBy (fun a b : Path × File => decide (a.1.relativeText ≤ b.1.relativeText))
      (fun e => e.1.relativeText) :=
    ⟨fun _ _ => decide_eq_true_iff⟩
  rw [walk_eq]
  apply hsorts.pairwise_mergeSort

namespace WellFormed

variable (h : t.WellFormed)

include h

theorem nodup_walk : ((t.walk root excludes).map (·.1)).Nodup := by
  have hdistinct := List.Nodup.of_append_left h.distinct
  rw [walk_eq, ((List.mergeSort_perm _ _).map _).nodup_iff]
  rw [List.Nodup, List.pairwise_map] at hdistinct ⊢
  rw [List.pairwise_filterMap]
  apply hdistinct.imp
  intro e e' hne found hfound found' hfound' heq
  rw [reached?_eq_some_iff] at hfound hfound'
  rw [hfound.2.2, hfound'.2.2, heq] at hne
  exact hne rfl

theorem proper_of_file? {relative : Path} {f : File} (hfile : t.file? (root ++ relative) = some f) :
    relative.Proper := by
  intro n hn
  exact h.named _ (h.mem_files_iff.mpr hfile) n (List.mem_append_right root hn)

/--
The files of a walk that satisfy a condition, as far as one looks at them.
-/
theorem mem_map_filter_walk {wanted : Path → Bool} {look : File → β} {relative : Path} {seen : β} :
    (relative, seen) ∈ ((t.walk root excludes).filter (fun e => wanted e.1)).map (fun e => (e.1, look e.2))
      ↔
    relative ≠ [] ∧ isReached excludes relative = true ∧ wanted relative = true ∧
      (t.file? (root ++ relative)).map look = some seen := by
  rw [List.mem_map, Option.map_eq_some_iff]
  constructor
  . rintro ⟨e, hmem, heq⟩
    obtain ⟨rfl, rfl⟩ := Prod.mk.inj heq
    rw [List.mem_filter, mem_walk, h.mem_files_iff] at hmem
    exact ⟨hmem.1.1, hmem.1.2.1, hmem.2, e.2, hmem.1.2.2, rfl⟩
  . rintro ⟨hne, hreached, hwanted, f, hfile, rfl⟩
    refine ⟨(relative, f), ?_, rfl⟩
    rw [List.mem_filter, mem_walk, h.mem_files_iff]
    exact ⟨⟨hne, hreached, hfile⟩, hwanted⟩

theorem nodup_map_filter_walk (wanted : Path → Bool) (look : File → β) :
    (((t.walk root excludes).filter (fun e => wanted e.1)).map (fun e => (e.1, look e.2))).Nodup := by
  apply List.Nodup.of_map (·.1)
  rw [List.map_map]
  exact h.nodup_walk.sublist (List.filter_sublist.map _)

end WellFormed

theorem map_filter_walk_eq (hs : s.WellFormed) (ht : t.WellFormed) (wanted : Path → Bool) (look : File → β)
    (h : ∀ relative, isReached excludes relative = true → wanted relative = true →
      (s.file? (root ++ relative)).map look = (t.file? (root ++ relative)).map look) :
    ((s.walk root excludes).filter (fun e => wanted e.1)).map (fun e => (e.1, look e.2))
      =
    ((t.walk root excludes).filter (fun e => wanted e.1)).map (fun e => (e.1, look e.2)) := by
  have hsorted : ∀ u : FileTree,
      (((u.walk root excludes).filter (fun e => wanted e.1)).map (fun e => (e.1, look e.2))).Pairwise
        (fun a b => a.1.relativeText ≤ b.1.relativeText) := by
    intro u
    rw [List.pairwise_map]
    exact (u.pairwise_walk root excludes).filter _
  refine List.Perm.eq_of_pairwise ?_ (hsorted s) (hsorted t) ?_
  . rintro ⟨p, a⟩ ⟨q, b⟩ hp hq hle hge
    rw [hs.mem_map_filter_walk] at hp
    rw [ht.mem_map_filter_walk] at hq
    obtain ⟨hpne, hreached, hwanted, hseen⟩ := hp
    obtain ⟨hqne, -, -, hseen'⟩ := hq
    obtain ⟨f, hf, -⟩ := Option.map_eq_some_iff.mp hseen
    obtain ⟨g, hg, -⟩ := Option.map_eq_some_iff.mp hseen'
    have hpath := Path.relativeText_injOn (hs.proper_of_file? hf) (ht.proper_of_file? hg) hpne hqne (hle.antisymm hge)
    subst hpath
    rw [h p hreached hwanted, hseen'] at hseen
    rw [Option.some.inj hseen]
  . rw [List.perm_ext_iff_of_nodup (hs.nodup_map_filter_walk wanted look) (ht.nodup_map_filter_walk wanted look)]
    rintro ⟨relative, seen⟩
    rw [hs.mem_map_filter_walk, ht.mem_map_filter_walk]
    apply and_congr_right
    intro _
    apply and_congr_right
    intro hreached
    apply and_congr_right
    intro hwanted
    rw [h relative hreached hwanted]

end FileTree

end ApiSurface
