import Mathlib.Data.List.MinMax
import Mathlib.Data.Multiset.Filter

/-!
# Priority queues

A priority queue hands out a value with the least key. Which one it hands out where several have
it is the business of the implementation, and may depend on everything that was ever done to the
queue: the laws of `PriorityQueue` leave it open, as the contract of such a container does.

Where the keys of the values are distinct nothing is left open, and two implementations with the
same values agree (`PriorityQueue.top_eq_of_le`), also if the one has values that the other one
does not have, as long as none of these comes out first.
-/

/-- **An implementation of priority queues** on states of type `H`, by the key of the values. -/
structure PriorityQueue (H : Type*) {α κ : Type*} [LinearOrder κ] (key : α → κ) where
  empty : H
  push : H → α → H
  /-- The value that comes out next. -/
  top : H → Option α
  /-- The queue without that value. -/
  pop : H → H
  /-- The values in the queue. -/
  values : H → Multiset α
  values_empty : values empty = 0
  values_push (h : H) (a : α) : values (push h a) = a ::ₘ values h
  top_eq_none_iff {h : H} : top h = none ↔ values h = 0
  values_of_top {h : H} {a : α} : top h = some a → values h = a ::ₘ values (pop h)
  key_le {h : H} {a b : α} : top h = some a → b ∈ values h → key a ≤ key b

namespace PriorityQueue

variable {H K α κ : Type*} [LinearOrder κ] {key : α → κ}
variable (p : PriorityQueue H key) (q : PriorityQueue K key) {h : H} {k : K} {a b : α}

theorem mem_of_top (ha : p.top h = some a) : a ∈ p.values h := by
  rw [p.values_of_top ha]
  exact Multiset.mem_cons_self a _

/-- A queue with a value in it hands one out. -/
theorem exists_top (ha : a ∈ p.values h) : ∃ b, p.top h = some b := by
  cases htop : p.top h with
  | none =>
    rw [p.top_eq_none_iff.mp htop] at ha
    exact absurd ha (Multiset.notMem_zero a)
  | some b => exact ⟨b, rfl⟩

theorem mem_push : b ∈ p.values (p.push h a) ↔ b = a ∨ b ∈ p.values h := by
  rw [p.values_push, Multiset.mem_cons]

/-- Another value than the one that comes out stays. -/
theorem mem_pop_or (htop : p.top h = some a) (hb : b ∈ p.values h) :
    b = a ∨ b ∈ p.values (p.pop h) := by
  rwa [p.values_of_top htop, Multiset.mem_cons] at hb

theorem mem_of_mem_pop (htop : p.top h = some a) (hb : b ∈ p.values (p.pop h)) :
    b ∈ p.values h := by
  rw [p.values_of_top htop]
  exact Multiset.mem_cons_of_mem hb

/-- **Two implementations agree**, if the keys of the values are distinct: the one that has fewer
values hands out the same value, if it has it. -/
theorem top_eq_of_le (hle : q.values k ≤ p.values h)
    (hdistinct : ((q.values k).map key).Nodup) (htop : p.top h = some a)
    (ha : a ∈ q.values k) : q.top k = some a := by
  obtain ⟨b, hb⟩ := q.exists_top ha
  have hmem : b ∈ q.values k := q.mem_of_top hb
  have hkey : key b = key a :=
    le_antisymm (q.key_le hb ha) (p.key_le htop (Multiset.mem_of_le hle hmem))
  rw [hb, Multiset.inj_on_of_nodup_map hdistinct b hmem a ha hkey]

/-- The queue without its first value has the values of the other one without it. -/
theorem values_pop_of_top (htop : p.top h = some a) {s : Multiset α}
    (hs : p.values h = a ::ₘ s) : p.values (p.pop h) = s :=
  (Multiset.cons_inj_right a).mp ((p.values_of_top htop).symm.trans hs)

/-- **A list as a priority queue.** Of the values with the least key the one that was pushed last
comes out. -/
def ofList [DecidableEq α] (key : α → κ) : PriorityQueue (List α) key where
  empty := []
  push l a := a :: l
  top l := l.argmin key
  pop l := (l.argmin key).elim l l.erase
  values l := l
  values_empty := rfl
  values_push _ _ := rfl
  top_eq_none_iff := List.argmin_eq_none.trans (Multiset.coe_eq_zero _).symm
  values_of_top htop := by
    rw [htop, Option.elim_some]
    exact Multiset.coe_eq_coe.mpr (List.perm_cons_erase (List.argmin_mem htop))
  key_le htop hb := List.le_of_mem_argmin hb htop

end PriorityQueue
