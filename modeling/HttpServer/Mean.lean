import Mathlib.Algebra.BigOperators.Group.List.Basic
import Mathlib.Algebra.CharZero.Defs
import Mathlib.Algebra.Field.Basic
import Mathlib.Tactic.LinearCombination

/-!
# The mean of a list

A mean can be kept up to date without the list: `mean_concat` computes the mean with one more
entry from the mean and the length so far. `mean_cons_eq_iff` says when the first entry does
not matter.
-/

section Mean

variable {K : Type*} [Field K]

/-- The mean of a list, which is zero for the empty one. -/
def mean (xs : List K) : K := xs.sum / xs.length

@[simp] theorem mean_singleton (x : K) : mean [x] = x := by
  simp [mean]

variable [CharZero K]

/-- **One more entry.** -/
theorem mean_concat (xs : List K) (x : K) :
    mean (xs ++ [x]) = (mean xs * xs.length + x) / (xs.length + 1) := by
  unfold mean
  cases xs with
  | nil => simp
  | cons y ys =>
    have hlen : ((y :: ys).length : K) ≠ 0 := Nat.cast_ne_zero.mpr (Nat.succ_ne_zero _)
    rw [List.sum_append, List.sum_singleton, List.length_append, List.length_singleton,
      Nat.cast_add, Nat.cast_one, div_mul_cancel₀ _ hlen]

/-- The first entry does not change the mean of the others exactly if it is that mean. -/
theorem mean_cons_eq_iff {x : K} {xs : List K} (hne : xs ≠ []) :
    mean xs = mean (x :: xs) ↔ x = mean xs := by
  have hlen : (xs.length : K) ≠ 0 :=
    Nat.cast_ne_zero.mpr fun h0 => hne (List.length_eq_zero_iff.mp h0)
  have hsucc : (xs.length : K) + 1 ≠ 0 := by
    have h := Nat.cast_ne_zero (R := K).mpr (Nat.succ_ne_zero xs.length)
    rwa [Nat.cast_succ] at h
  unfold mean
  rw [List.sum_cons, List.length_cons, Nat.cast_add, Nat.cast_one, div_eq_div_iff hlen hsucc,
    eq_div_iff hlen]
  constructor
  · intro h
    linear_combination -h
  · intro h
    linear_combination -h

end Mean
