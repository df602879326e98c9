import Mathlib.Logic.Relation
import Mathlib.Order.Bounds.Defs
import ApiSurface.Proofs.Reference.Key
import ApiSurface.Reference.Graph

/-!
This module contains the theory of the walk over a reference graph. The walk ends on every graph, and what it
has visited then is exactly what paths of edges reach from where it started.
-/

namespace ApiSurface.ReferenceGraph

/--
The edges that the walk follows: `a` mentions `b`, or `b` extends or implements `a`.
-/
def Edge (g : ReferenceGraph) (a b : TypeKey) : Prop :=
  (a, b) ∈ g.references ∨ (a, b) ∈ g.implementers

/--
A path of finitely many edges leads from one of the keys to `k`.
-/
def Reaches (g : ReferenceGraph) (start : List TypeKey) (k : TypeKey) : Prop :=
  ∃ r ∈ start, Relation.ReflTransGen g.Edge r k

/--
No edge leads out of the set.
-/
def Closed (g : ReferenceGraph) (s : Set TypeKey) : Prop :=
  ∀ a ∈ s, ∀ b, g.Edge a b → b ∈ s

variable {g : ReferenceGraph} {start visited queue : List TypeKey}

theorem Reaches.of_mem {r : TypeKey} (h : r ∈ start) : g.Reaches start r :=
  ⟨r, h, Relation.ReflTransGen.refl⟩

theorem Reaches.tail {a b : TypeKey} (h : g.Reaches start a) (hedge : g.Edge a b) : g.Reaches start b := by
  obtain ⟨r, hr, hpath⟩ := h
  exact ⟨r, hr, hpath.tail hedge⟩

theorem closed_setOf_reaches (g : ReferenceGraph) (start : List TypeKey) : g.Closed {k | g.Reaches start k} := by
  intro a ha b hedge
  exact Reaches.tail ha hedge

theorem Closed.mem_of_reaches {s : Set TypeKey} {k : TypeKey} (hclosed : g.Closed s)
    (hstart : ∀ r ∈ start, r ∈ s) (h : g.Reaches start k) : k ∈ s := by
  obtain ⟨r, hr, hpath⟩ := h
  induction hpath with
  | refl => exact hstart r hr
  | tail _ hedge ih => exact hclosed _ ih _ hedge

theorem mem_fresh_iff_edge {k n : TypeKey} : n ∈ g.fresh visited k ↔ g.Edge k n ∧ n ∉ visited := by
  rw [mem_fresh, mem_successors]
  rfl

/--
What holds whenever the walk looks at its queue. A visited key that is no longer queued has had its turn, so
everything it leads to is visited as well.
-/
structure WalkInvariant (g : ReferenceGraph) (start visited queue : List TypeKey) : Prop where
  start_visited : ∀ r ∈ start, r ∈ visited
  queue_visited : ∀ k ∈ queue, k ∈ visited
  visited_reached : ∀ k ∈ visited, g.Reaches start k
  expanded : ∀ k ∈ visited, k ∈ queue ∨ ∀ n, g.Edge k n → n ∈ visited
  visited_nodup : visited.Nodup

theorem WalkInvariant.initial (g : ReferenceGraph) (start : List TypeKey) :
    g.WalkInvariant start start.eraseDups start.eraseDups where
  start_visited := by simp [List.mem_eraseDups]
  queue_visited := by simp
  visited_reached := by
    intro k hk
    exact Reaches.of_mem (List.mem_eraseDups.mp hk)
  expanded := by
    intro k hk
    exact Or.inl hk
  visited_nodup := Distinct.nodup_eraseDups start

theorem WalkInvariant.step {k : TypeKey} (inv : g.WalkInvariant start visited (k :: queue)) :
    g.WalkInvariant start (visited ++ g.fresh visited k) (queue ++ g.fresh visited k) where
  start_visited := by
    intro r hr
    exact List.mem_append_left _ (inv.start_visited r hr)
  queue_visited := by
    intro n hn
    rw [List.mem_append] at hn ⊢
    cases hn with
    | inl hn => exact Or.inl (inv.queue_visited n (List.mem_cons_of_mem _ hn))
    | inr hn => exact Or.inr hn
  visited_reached := by
    intro n hn
    rw [List.mem_append] at hn
    cases hn with
    | inl hn => exact inv.visited_reached n hn
    | inr hn =>
      rw [mem_fresh_iff_edge] at hn
      have hk := inv.visited_reached k (inv.queue_visited k List.mem_cons_self)
      exact hk.tail hn.1
  expanded := by
    intro a ha
    rw [List.mem_append] at ha
    cases ha with
    | inr ha => exact Or.inl (List.mem_append_right _ ha)
    | inl ha =>
      cases inv.expanded a ha with
      | inr hout =>
        right
        intro n hn
        exact List.mem_append_left _ (hout n hn)
      | inl hqueued =>
        rw [List.mem_cons] at hqueued
        cases hqueued with
        | inr hqueued => exact Or.inl (List.mem_append_left _ hqueued)
        | inl heq =>
          -- this is the key whose turn it is: its successors are visited already, or fresh
          subst heq
          right
          intro n hn
          by_cases hvisited : n ∈ visited
          . exact List.mem_append_left _ hvisited
          . apply List.mem_append_right
            rw [mem_fresh_iff_edge]
            exact ⟨hn, hvisited⟩
  visited_nodup := by
    rw [List.nodup_append]
    refine ⟨inv.visited_nodup, g.nodup_fresh visited k, ?_⟩
    intro a ha b hb heq
    rw [mem_fresh_iff_edge] at hb
    exact hb.2 (heq ▸ ha)

theorem WalkInvariant.walk (inv : g.WalkInvariant start visited queue) :
    g.WalkInvariant start (g.walk visited queue) [] := by
  fun_induction g.walk visited queue with
  | case1 => exact inv
  | case2 visited k queue ih =>
    apply ih
    apply inv.step

theorem WalkInvariant.closed (inv : g.WalkInvariant start visited []) : g.Closed {k | k ∈ visited} := by
  intro a ha b hedge
  cases inv.expanded a ha with
  | inl h => simp at h
  | inr h => exact h b hedge

theorem WalkInvariant.mem_iff_reaches {k : TypeKey} (inv : g.WalkInvariant start visited []) :
    k ∈ visited ↔ g.Reaches start k := by
  constructor
  . intro h
    exact inv.visited_reached k h
  . intro h
    exact inv.closed.mem_of_reaches inv.start_visited h

theorem mem_reachableFrom {k : TypeKey} : k ∈ g.reachableFrom start ↔ g.Reaches start k := by
  unfold reachableFrom
  rw [TypeKey.mem_sort]
  apply (WalkInvariant.initial g start).walk.mem_iff_reaches

theorem nodup_reachableFrom (g : ReferenceGraph) (start : List TypeKey) : (g.reachableFrom start).Nodup := by
  unfold reachableFrom
  rw [TypeKey.nodup_sort]
  exact (WalkInvariant.initial g start).walk.visited_nodup

theorem mem_reachable {k : TypeKey} : k ∈ g.reachable ↔ g.Reaches g.roots k := by
  unfold reachable
  rw [mem_reachableFrom]

theorem reachable_closed {a b : TypeKey} (ha : a ∈ g.reachable) (hedge : g.Edge a b) : b ∈ g.reachable := by
  rw [mem_reachable] at ha ⊢
  exact ha.tail hedge

theorem mem_of_mem_reachable {s : List TypeKey} {k : TypeKey} (hroots : ∀ r ∈ g.roots, r ∈ s)
    (hedges : ∀ e ∈ g.references ++ g.implementers, e.1 ∈ s → e.2 ∈ s) (hk : k ∈ g.reachable) : k ∈ s := by
  have hclosed : g.Closed {k | k ∈ s} := by
    intro a ha b hedge
    exact hedges (a, b) (List.mem_append.mpr hedge) ha
  rw [mem_reachable] at hk
  exact hclosed.mem_of_reaches hroots hk

theorem isLeast_setOf_reaches (g : ReferenceGraph) (start : List TypeKey) :
    IsLeast {s : Set TypeKey | (∀ r ∈ start, r ∈ s) ∧ g.Closed s} {k | g.Reaches start k} := by
  constructor
  . constructor
    . intro r hr
      exact Reaches.of_mem hr
    . apply closed_setOf_reaches
  . intro s hs k hk
    exact hs.2.mem_of_reaches hs.1 hk

theorem reachableFrom_isLeast_closed (g : ReferenceGraph) (start : List TypeKey) :
    IsLeast {s : Set TypeKey | (∀ r ∈ start, r ∈ s) ∧ g.Closed s} {k | k ∈ g.reachableFrom start} ∧
    (∀ k, k ∈ g.reachableFrom start ↔ ∃ r ∈ start, Relation.ReflTransGen g.Edge r k) ∧
    (g.reachableFrom start).Nodup ∧
    (g.reachableFrom start).Pairwise (fun a b => a.le b = true) ∧
    (∀ k, k ∈ g.reachable ↔ ∃ r ∈ g.roots, Relation.ReflTransGen g.Edge r k) := by
  refine ⟨?_, ?_, ?_, ?_, ?_⟩
  . simp only [mem_reachableFrom]
    apply isLeast_setOf_reaches
  . intro k
    apply mem_reachableFrom
  . apply nodup_reachableFrom
  . apply TypeKey.pairwise_sort
  . intro k
    apply mem_reachable

end ApiSurface.ReferenceGraph
