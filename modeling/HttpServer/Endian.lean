import Mathlib.Data.Nat.Notation
import Mathlib.Tactic.Ring
import Mathlib.Tactic.NormNum

/-!
# Big-endian digits

Numbers as octets, most significant first: `BigEndian.value` reads a list of
octets as a number and `BigEndian.digits w` writes the last `w` of a number's
digits in base 256. The two are inverse to each other on lists of `w` octets and
numbers below `256 ^ w`. The second half of the module relates them to the loops
that compute them in machine words, shifting by eight bits at a time.
-/

namespace BigEndian

/-- The number with the given digits, the most significant one first. -/
def value (l : List UInt8) : ℕ := l.foldl (fun v b => 256 * v + b.toNat) 0

/-- The last `w` digits of `n`, the most significant one first. -/
def digits : ℕ → ℕ → List UInt8
  | 0, _ => []
  | w + 1, n => UInt8.ofNat (n / 256 ^ w) :: digits w n

@[simp] theorem digits_zero (n : ℕ) : digits 0 n = [] := rfl

@[simp] theorem value_nil : value [] = 0 := rfl

/-- As many digits as were asked for. -/
@[simp] theorem length_digits (w n : ℕ) : (digits w n).length = w := by
  induction w with
  | zero => rfl
  | succ w ih => rw [digits, List.length_cons, ih]

/-- Reading goes on from a number by shifting it to the left of the rest. -/
theorem foldl_value (l : List UInt8) (v : ℕ) :
    l.foldl (fun v b => 256 * v + b.toNat) v = 256 ^ l.length * v + value l := by
  induction l generalizing v with
  | nil => simp
  | cons b l ih =>
    have hv : value (b :: l) = 256 ^ l.length * (256 * 0 + b.toNat) + value l := ih _
    rw [List.foldl_cons, ih, hv, List.length_cons, pow_succ]
    ring

/-- The first digit counts most. -/
@[simp] theorem value_cons (b : UInt8) (l : List UInt8) :
    value (b :: l) = 256 ^ l.length * b.toNat + value l := by
  rw [value, List.foldl_cons, foldl_value, Nat.mul_zero, Nat.zero_add]

/-- Two lists behind each other: the loops read a prefix and go on. -/
theorem value_append (l l' : List UInt8) :
    value (l ++ l') = 256 ^ l'.length * value l + value l' := by
  rw [value, List.foldl_append]
  exact foldl_value l' (value l)

/-- Leading zeros count for nothing. -/
theorem value_replicate_zero (k : ℕ) : value (List.replicate k 0) = 0 := by
  induction k with
  | zero => rfl
  | succ k ih => rw [List.replicate_succ, value_cons, ih, UInt8.toNat_zero, Nat.mul_zero]

/-- A number has no more digits than the list. -/
theorem value_lt (l : List UInt8) : value l < 256 ^ l.length := by
  induction l with
  | nil => simp
  | cons b l ih =>
    have hb : b.toNat < 256 := b.toNat_lt
    have hmul : 256 ^ l.length * b.toNat ≤ 256 ^ l.length * 255 :=
      Nat.mul_le_mul_left _ (by omega)
    rw [value_cons, List.length_cons, pow_succ]
    omega

/-- Only the last `w` digits count. -/
theorem value_digits (w n : ℕ) : value (digits w n) = n % 256 ^ w := by
  induction w with
  | zero => simp [Nat.mod_one]
  | succ w ih =>
    have hb : (UInt8.ofNat (n / 256 ^ w)).toNat = n / 256 ^ w % 256 := UInt8.toNat_ofNat'
    rw [digits, value_cons, length_digits, ih, hb, pow_succ, Nat.mod_mul, Nat.add_comm]

/-- **A number with `w` digits is read back from them.** -/
theorem value_digits_of_lt {w n : ℕ} (h : n < 256 ^ w) : value (digits w n) = n := by
  rw [value_digits, Nat.mod_eq_of_lt h]

/-- Digits do not see what is above them. -/
theorem digits_add_mul (w n m : ℕ) : digits w (n + 256 ^ w * m) = digits w n := by
  induction w generalizing m with
  | zero => rfl
  | succ w ih =>
    have hdiv : (n + 256 ^ (w + 1) * m) / 256 ^ w = n / 256 ^ w + 256 * m := by
      rw [pow_succ, Nat.mul_assoc, Nat.add_mul_div_left _ _ (by positivity)]
    have hof : UInt8.ofNat (n / 256 ^ w + 256 * m) = UInt8.ofNat (n / 256 ^ w) := by
      apply UInt8.toNat_inj.mp
      rw [UInt8.toNat_ofNat', UInt8.toNat_ofNat', Nat.add_mul_mod_self_left]
    rw [digits, digits, hdiv, hof, pow_succ, Nat.mul_assoc, ih]

/-- **Octets are written back** from the number that they stand for. -/
theorem digits_value (l : List UInt8) : digits l.length (value l) = l := by
  induction l with
  | nil => rfl
  | cons b l ih =>
    have hlt := value_lt l
    have hdiv : (256 ^ l.length * b.toNat + value l) / 256 ^ l.length = b.toNat := by
      rw [Nat.mul_add_div (by positivity), Nat.div_eq_of_lt hlt, Nat.add_zero]
    rw [List.length_cons, digits, value_cons, hdiv, UInt8.ofNat_toNat, Nat.add_comm,
      digits_add_mul, ih]

/-! ## Machine words -/

/-- One step of reading: shifting up and setting the low octet. -/
theorem toNat_shiftLeft_or {v : UInt64} {b : UInt8} (h : v.toNat < 256 ^ 7) :
    ((v <<< 8) ||| b.toUInt64).toNat = 256 * v.toNat + b.toNat := by
  have hb : b.toNat < 2 ^ 8 := b.toNat_lt
  have hv : v.toNat <<< 8 % 2 ^ 64 = 2 ^ 8 * v.toNat := by
    rw [Nat.shiftLeft_eq, Nat.mul_comm]
    exact Nat.mod_eq_of_lt (by omega)
  rw [UInt64.toNat_or, UInt64.toNat_shiftLeft, UInt8.toNat_toUInt64]
  show v.toNat <<< 8 % 2 ^ 64 ||| b.toNat = _
  rw [hv, ← Nat.two_pow_add_eq_or_of_lt hb]

/-- Reading at most eight octets into a 64-bit word does not overflow. -/
theorem toNat_foldl_shiftLeft_or {l : List UInt8} {v : UInt64} {k : ℕ} (hv : v.toNat < 256 ^ k)
    (hk : k + l.length ≤ 8) :
    (l.foldl (fun (a : UInt64) (b : UInt8) => (a <<< 8) ||| b.toUInt64) v).toNat
      = 256 ^ l.length * v.toNat + value l := by
  induction l generalizing v k with
  | nil => simp
  | cons b l ih =>
    rw [List.length_cons] at hk
    have hb : b.toNat < 256 := b.toNat_lt
    have h7 : v.toNat < 256 ^ 7 :=
      lt_of_lt_of_le hv (Nat.pow_le_pow_right (by omega) (by omega))
    have hstep := toNat_shiftLeft_or (b := b) h7
    rw [List.foldl_cons, ih (k := k + 1) (by rw [hstep, pow_succ]; omega) (by omega), hstep,
      value_cons, List.length_cons, pow_succ]
    ring

/-- One step of writing: the octet at a place of the word. -/
theorem toNat_shiftRight_and {v : UInt64} {i : ℕ} (h : i < 8) :
    ((v >>> UInt64.ofNat (i * 8)) &&& 0xFF).toUInt8 = UInt8.ofNat (v.toNat / 256 ^ i) := by
  apply UInt8.toNat_inj.mp
  have hi : (UInt64.ofNat (i * 8)).toNat % 64 = i * 8 := by
    rw [UInt64.toNat_ofNat', Nat.mod_eq_of_lt (a := i * 8) (by omega), Nat.mod_eq_of_lt (by omega)]
  have hand : ∀ a : ℕ, a &&& (0xFF : UInt64).toNat = a % 2 ^ 8 := fun a =>
    Nat.and_two_pow_sub_one_eq_mod a 8
  rw [UInt64.toNat_toUInt8, UInt64.toNat_and, UInt64.toNat_shiftRight, hi, hand,
    UInt8.toNat_ofNat', Nat.mod_mod, Nat.shiftRight_eq_div_pow,
    show (256 : ℕ) ^ i = 2 ^ (i * 8) by rw [Nat.mul_comm, pow_mul]; norm_num]

end BigEndian
