import Mathlib.Data.List.GetD

/-!
# Raw memory

What is read behind a pointer is a function of the offset. `write` stores a list at an
offset and `read` takes a number of cells from one; what is read back depends on whether
the two stretches meet.
-/

/-- What the cells behind a pointer hold. -/
abbrev Memory (α : Type*) := ℕ → α

namespace Memory

variable {α : Type*} (m : Memory α)

/-- The cells from an offset on. -/
def read (offset n : ℕ) : List α := (List.range n).map fun i => m (offset + i)

/-- Store a list at an offset. -/
def write (offset : ℕ) (data : List α) : Memory α := fun i =>
  if offset ≤ i then data.getD (i - offset) (m i) else m i

@[simp] theorem length_read (offset n : ℕ) : (m.read offset n).length = n := by
  rw [read, List.length_map, List.length_range]

theorem getElem?_read (offset n i : ℕ) :
    (m.read offset n)[i]? = if i < n then some (m (offset + i)) else none := by
  rw [read, List.getElem?_map]
  split
  · rename_i hi
    rw [List.getElem?_range hi, Option.map_some]
  · rename_i hi
    rw [List.getElem?_eq_none (by rw [List.length_range]; omega), Option.map_none]

/-- A cell outside of a store is not changed by it. -/
theorem write_outside {offset i : ℕ} {data : List α}
    (h : i < offset ∨ offset + data.length ≤ i) : m.write offset data i = m i := by
  unfold write
  split
  · exact List.getD_eq_default _ _ (by omega)
  · rfl

/-- **What is behind a store is not changed by it.** -/
theorem read_write_behind {offset offset' : ℕ} {data : List α}
    (h : offset + data.length ≤ offset') (n : ℕ) :
    (m.write offset data).read offset' n = m.read offset' n :=
  List.map_congr_left fun _ _ => m.write_outside (by omega)

/-- **What is before a store is not changed by it.** -/
theorem read_write_before {offset offset' n : ℕ} (h : offset' + n ≤ offset) (data : List α) :
    (m.write offset data).read offset' n = m.read offset' n :=
  List.map_congr_left fun _ hi => m.write_outside (by have := List.mem_range.mp hi; omega)

/-- **What is stored is read back.** -/
theorem read_write_self (offset : ℕ) (data : List α) :
    (m.write offset data).read offset data.length = data := by
  apply List.ext_getElem?
  intro i
  rw [getElem?_read]
  split
  · rename_i hi
    rw [write, if_pos (Nat.le_add_right _ _), Nat.add_sub_cancel_left, List.getD_eq_getElem _ _ hi,
      List.getElem?_eq_getElem hi]
  · rename_i hi
    rw [List.getElem?_eq_none (Nat.not_lt.mp hi)]

/-- One stretch behind another. -/
theorem read_add (offset k n : ℕ) :
    m.read offset (k + n) = m.read offset k ++ m.read (offset + k) n := by
  unfold read
  rw [List.range_add, List.map_append, List.map_map]
  congr 1
  exact List.map_congr_left fun i _ => congrArg m (Nat.add_assoc offset k i).symm

/-- Cells that agree are read the same. -/
theorem read_congr {m m' : Memory α} {offset offset' : ℕ} (n : ℕ)
    (h : ∀ i, m (offset + i) = m' (offset' + i)) : m.read offset n = m'.read offset' n :=
  List.map_congr_left fun i _ => h i

end Memory
