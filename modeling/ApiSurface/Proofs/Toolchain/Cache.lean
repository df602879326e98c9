import ApiSurface.Toolchain.Cache

/-!
This module contains proofs about what is remembered of the analyzers: each operation says what is known of one
language afterwards, and leaves what is known of the others.
-/

namespace ApiSurface
namespace AvailabilityCache

variable {l l' : Language}

@[simp]
theorem get?_erase_self (c : AvailabilityCache) (l : Language) : (c.erase l).get? l = none := by
  unfold get? erase
  rw [List.lookup_eq_none_iff]
  intro e he
  rw [List.mem_filter, bne_comm] at he
  exact he.2

theorem get?_erase_of_ne (h : l' ≠ l) (c : AvailabilityCache) : (c.erase l).get? l' = c.get? l' := by
  unfold get? erase
  dsimp only
  induction c.entries with
  | nil => rfl
  | cons e es ih =>
    by_cases he : e.1 = l
    . have hne : (l' == e.1) = false := by simpa [he] using h
      rw [List.filter_cons_of_neg (by simpa using he), ih, List.lookup_cons, hne]
    . rw [List.filter_cons_of_pos (by simpa using he), List.lookup_cons, List.lookup_cons, ih]

@[simp]
theorem get?_insert_self (c : AvailabilityCache) (l : Language) (r : Resolution) : (c.insert l r).get? l = some r := by
  unfold get? insert
  simp

theorem get?_insert_of_ne (h : l' ≠ l) (c : AvailabilityCache) (r : Resolution) :
    (c.insert l r).get? l' = c.get? l' := by
  rw [← get?_erase_of_ne h c]
  unfold get? insert
  rw [List.lookup_cons, beq_false_of_ne h]

section Resolve

variable (c : AvailabilityCache) (search : Language → Resolution)

/--
What a search or the memory gave is what the memory gives from then on.
-/
@[simp]
theorem get?_resolve_self (l : Language) : (c.resolve search l).2.get? l = some (c.resolve search l).1 := by
  unfold resolve
  split
  next r hr => exact hr
  next => exact get?_insert_self c l (search l)

theorem get?_resolve_of_ne (h : l' ≠ l) : (c.resolve search l).2.get? l' = c.get? l' := by
  unfold resolve
  split
  next => rfl
  next => exact get?_insert_of_ne h c (search l)

theorem resolve_of_get? {r : Resolution} (h : c.get? l = some r) : c.resolve search l = (r, c) := by
  unfold resolve
  rw [h]

end Resolve

end AvailabilityCache
end ApiSurface
