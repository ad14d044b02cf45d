import Mathlib.Data.List.Rotate

/-!
# Circular windows of a list

A fixed block of cells used as a ring is a list read around its end. The cells
in use are a *window*: `n` of them from a start position on, the position
behind the last cell being the first. `List.rotate` puts the start position in
front, so a window is a prefix of a rotation, and the two things a ring does
are short calculations with it: consuming from the front moves the window
(`Circular.drop_window`), and writing behind the window lengthens it by what
was written (`Circular.window_of_written`).
-/

namespace Circular

variable {α : Type*}

/-- The `n` cells of `b` from position `s` on, going around its end. -/
def window (b : List α) (s n : ℕ) : List α := (b.rotate s).take n

/-- `b` with `src` copied over the cells from position `i` on. -/
def overwrite (b : List α) (i : ℕ) (src : List α) : List α :=
  b.take i ++ src ++ b.drop (i + src.length)

@[simp] theorem overwrite_nil (b : List α) (i : ℕ) : overwrite b i [] = b := by
  simp [overwrite]

theorem length_overwrite {b src : List α} {i : ℕ} (h : i + src.length ≤ b.length) :
    (overwrite b i src).length = b.length := by
  simp only [overwrite, List.length_append, List.length_take, List.length_drop]
  omega

@[simp] theorem length_window {b : List α} {s n : ℕ} (h : n ≤ b.length) :
    (window b s n).length = n := by
  rw [window, List.length_take, List.length_rotate, Nat.min_eq_left h]

@[simp] theorem window_zero_length (b : List α) (s : ℕ) : window b s 0 = [] :=
  List.take_zero

/-- A start position counts modulo the size of the block. -/
theorem window_mod (b : List α) (s n : ℕ) : window b (s % b.length) n = window b s n := by
  rw [window, List.rotate_mod, ← window]

/-- A window that does not reach the end of the block. -/
theorem window_of_le {b : List α} {s n : ℕ} (h : s + n ≤ b.length) :
    window b s n = (b.drop s).take n := by
  rw [window, List.rotate_eq_drop_append_take (by omega),
    List.take_append_of_le_length (by rw [List.length_drop]; omega)]

/-- A window that goes around the end of the block. -/
theorem window_of_ge {b : List α} {s n : ℕ} (hs : s ≤ b.length) (h : b.length ≤ s + n)
    (hn : n ≤ b.length) : window b s n = b.drop s ++ b.take (s + n - b.length) := by
  rw [window, List.rotate_eq_drop_append_take hs, List.take_append, List.length_drop,
    List.take_of_length_le (by rw [List.length_drop]; omega), List.take_take]
  congr 2
  omega

/-- The front of a window. -/
theorem take_window {b : List α} {s n k : ℕ} (h : k ≤ n) :
    (window b s n).take k = window b s k := by
  rw [window, List.take_take, Nat.min_eq_left h, ← window]

/-- The cells of a window. -/
theorem getElem?_window {b : List α} {s n k : ℕ} (hk : k < n) (hn : n ≤ b.length) :
    (window b s n)[k]? = b[(s + k) % b.length]? := by
  rw [window, List.getElem?_take_of_lt hk, List.getElem?_rotate (by omega), Nat.add_comm]

/-- **Consuming from the front moves the window.** -/
theorem drop_window {b : List α} {s n k : ℕ} (hk : k ≤ n) (hn : n ≤ b.length) :
    (window b s n).drop k = window b (s + k) (n - k) := by
  have hlen : (b.rotate s).length = b.length := List.length_rotate ..
  rw [window, window, ← List.rotate_rotate, List.drop_take,
    List.rotate_eq_drop_append_take (l := b.rotate s) (n := k) (by omega),
    List.take_append_of_le_length (by rw [List.length_drop]; omega)]

/-- `b'` is `b` with `src` written from position `i` on, going around the
end. -/
structure Written (b b' : List α) (i : ℕ) (src : List α) : Prop where
  length_eq : b'.length = b.length
  rotate_eq : b'.rotate i = src ++ (b.rotate i).drop src.length

/-- Copying to a place that does not reach the end of the block. -/
theorem written_overwrite {b src : List α} {i : ℕ} (h : i + src.length ≤ b.length) :
    Written b (overwrite b i src) i src := by
  refine ⟨length_overwrite h, ?_⟩
  have hi : (b.take i).length = i := by rw [List.length_take]; omega
  have hrot : (overwrite b i src).rotate i
      = src ++ b.drop (i + src.length) ++ b.take i := by
    have := List.rotate_append_length_eq (b.take i) (src ++ b.drop (i + src.length))
    rwa [hi, ← List.append_assoc] at this
  rw [hrot, List.rotate_eq_drop_append_take (by omega),
    List.drop_append_of_le_length (by rw [List.length_drop]; omega), List.drop_drop,
    List.append_assoc]

/-- Copying in two parts, the first up to the end of the block and the second
to its front. -/
theorem written_overwrite_wrap {b src : List α} {i k : ℕ} (hk : k ≤ src.length)
    (hi : i + k = b.length) (h : src.length ≤ b.length) :
    Written b (overwrite (overwrite b i (src.take k)) 0 (src.drop k)) i src := by
  have htake : (src.take k).length = k := by rw [List.length_take]; omega
  have hdrop : (src.drop k).length = src.length - k := List.length_drop
  have hfirst : overwrite b i (src.take k) = b.take i ++ src.take k := by
    rw [overwrite, htake, hi, List.drop_length, List.append_nil]
  have hboth : overwrite (overwrite b i (src.take k)) 0 (src.drop k)
      = (src.drop k ++ (b.take i).drop (src.length - k)) ++ src.take k := by
    rw [hfirst, overwrite, List.take_zero, List.nil_append, Nat.zero_add, hdrop,
      List.drop_append_of_le_length (by rw [List.length_take]; omega), List.append_assoc]
  refine ⟨?_, ?_⟩
  · rw [hboth]
    simp only [List.length_append, List.length_drop, List.length_take]
    omega
  · have hlen : (src.drop k ++ (b.take i).drop (src.length - k)).length = i := by
      simp only [List.length_append, List.length_drop, List.length_take]
      omega
    have hrot := List.rotate_append_length_eq
      (src.drop k ++ (b.take i).drop (src.length - k)) (src.take k)
    rw [hlen] at hrot
    have hend : (b.drop i).drop src.length = [] :=
      List.drop_eq_nil_of_le (by rw [List.length_drop]; omega)
    rw [hboth, hrot, ← List.append_assoc, List.take_append_drop,
      List.rotate_eq_drop_append_take (by omega), List.drop_append, List.length_drop, hend,
      List.nil_append, show b.length - i = k by omega]

/-- **Writing behind a window lengthens it by what was written**, as long as the
block has room for both. -/
theorem window_of_written {b b' src : List α} {s n : ℕ} (h : Written b b' (s + n) src)
    (hroom : n + src.length ≤ b.length) :
    window b' s (n + src.length) = window b s n ++ src := by
  have hX : (b'.rotate s).length = b.length := (List.length_rotate ..).trans h.length_eq
  have hY : (b.rotate s).length = b.length := List.length_rotate ..
  have hrot := h.rotate_eq
  rw [← List.rotate_rotate, ← List.rotate_rotate,
    List.rotate_eq_drop_append_take (l := b'.rotate s) (by omega),
    List.rotate_eq_drop_append_take (l := b.rotate s) (by omega),
    List.drop_append_of_le_length (by rw [List.length_drop]; omega),
    ← List.append_assoc] at hrot
  obtain ⟨hdrop, htake⟩ := List.append_inj hrot (by
    simp only [List.length_append, List.length_drop, hX, hY]; omega)
  rw [window, List.take_add, htake, hdrop, List.take_left', ← window]
  rfl

/-- Going around at most once: a position below twice the size of the block. -/
theorem mod_eq_ite {x c : ℕ} (h : x < 2 * c) : x % c = if x < c then x else x - c := by
  split
  · exact Nat.mod_eq_of_lt ‹_›
  · rw [Nat.mod_eq_sub_mod (by omega), Nat.mod_eq_of_lt (by omega)]

end Circular
