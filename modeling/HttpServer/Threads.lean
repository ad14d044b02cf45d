import Mathlib.Data.List.Perm.Basic

/-!
# One thread and the others

The threads of a program are a list of the places in the code where they are, and a step moves
one of them. Up to the order of the list there is the thread that moves, before and after, and
there are the others, which are the same ones (`Threads.exists_others`). What is asked of such a
list – how many threads are at a place of some kind, whether one is, whether all are – does not
depend on the order, so that a step is a change of the head of a list.
-/

namespace Threads

variable {α : Type*} {l : List α} {i : ℕ} {a : α}

/-- **The threads are the one that moves and the others.** -/
theorem exists_others (h : l[i]? = some a) :
    ∃ rest : List α, l.Perm (a :: rest) ∧ ∀ b, (l.set i b).Perm (b :: rest) := by
  obtain ⟨hi, rfl⟩ := List.getElem?_eq_some_iff.mp h
  exact ⟨l.eraseIdx i, (List.getElem_cons_eraseIdx_perm hi).symm,
    fun b => List.set_perm_cons_eraseIdx hi b⟩

/-- The number of threads of a kind, when one moves. -/
theorem countP_set_add (p : α → Bool) (h : l[i]? = some a) (b : α) :
    (l.set i b).countP p + (p a).toNat = l.countP p + (p b).toNat := by
  obtain ⟨rest, hl, hset⟩ := exists_others h
  rw [hl.countP_eq, (hset b).countP_eq, List.countP_cons, List.countP_cons]
  cases p a <;> cases p b <;> simp

/-- A thread that moves to no place of a kind does not add to those that are there. -/
theorem countP_set_le {p : α → Bool} {b : α} (h : l[i]? = some a) (hb : p b = false) :
    (l.set i b).countP p ≤ l.countP p := by
  have hcount := countP_set_add p h b
  rw [hb, Bool.toNat_false] at hcount
  omega

/-- If no more threads are of a kind than the one that moves, none of the others is. -/
theorem eq_false_of_countP_le_one {p : α → Bool} {rest : List α} (h : l.Perm (a :: rest))
    (ha : p a = true) (hone : l.countP p ≤ 1) : ∀ b ∈ rest, p b = false := by
  rw [h.countP_eq, List.countP_cons_of_pos ha] at hone
  have hzero : rest.countP p = 0 := by omega
  exact fun b hb => Bool.eq_false_iff.mpr (List.countP_eq_zero.mp hzero b hb)

/-- What all threads are, and the one that moves at its new place, all threads are then. -/
theorem forall_mem_set {P : α → Prop} {b : α} (h : ∀ c ∈ l, P c) (hb : P b) (i : ℕ) :
    ∀ c ∈ l.set i b, P c := by
  intro c hc
  obtain hc | rfl := List.mem_or_eq_of_mem_set hc
  · exact h c hc
  · exact hb

/-- What a thread keeps when it moves, all threads keep. -/
theorem map_set_of_eq {β : Type*} (f : α → β) {b : α} (h : l[i]? = some a) (hf : f b = f a) :
    (l.set i b).map f = l.map f := by
  rw [List.map_set, hf]
  refine List.ext_getElem? fun j => ?_
  rw [List.getElem?_set]
  split
  · rename_i hij
    subst hij
    have hi : (l.map f)[i]? = some (f a) := by rw [List.getElem?_map, h, Option.map_some]
    rw [if_pos (List.getElem?_eq_some_iff.mp hi).1, hi]
  · rfl

end Threads
