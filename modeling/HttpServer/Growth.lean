import HttpServer.RingBuffer
import Mathlib.Data.Nat.Find

/-!
# Growing the ring buffer over all of `size_t`

`ensure_writable(len)` doubles the capacity until `len` more bytes fit, in 64-bit
arithmetic. Two things go wrong. The doubling can wrap around before it is large
enough: it ends at zero then, where the test, itself a difference of `size_t`s, is
met by a length of up to `2 ^ 64` less what is stored, so that the buffer is left
without a cell, or is never met, and the loop goes on forever. And what the loop looks
for is room behind the stored bytes, while the write position stays where it was, so
that in a buffer whose read position was positive less room is left than asked for.

`Allocated.ensuresRoom_iff` says for which lengths a state gets what it asks for, or
an exception. Where the buffer is read from its first cell and nothing can overflow it
always does (`Allocated.ensuresRoom_of_readPos`).
-/

namespace RingBuffer

/-- A well-formed buffer whose vector can have been allocated. -/
structure Allocated (rb : RingBuffer) : Prop extends WellFormed rb where
  capacity_le : rb.capacity ≤ vectorMaxSize

/-- **What `ensure_writable` promises**: it returns, with no fewer cells and the room
asked for, or it throws and leaves the buffer as it was. -/
def EnsuresRoom (rb : RingBuffer) (len : ℕ) : Prop :=
  match rb.call (.ensureWritable len) with
  | (rb', .done) => rb.capacity ≤ rb'.capacity ∧ len ≤ rb'.writableBytes
  | (rb', .threw _) => rb' = rb
  | _ => False

/-- The capacity after so many doublings in `size_t`. -/
def doubling (rb : RingBuffer) (k : ℕ) : ℕ := rb.capacity * 2 ^ k % 2 ^ 64

/-- The room is there, or the first doubling that does not lie between the stored bytes
and those with the new ones is a large one: the new bytes fit behind the write position
as it is, or it is too large to be allocated. -/
def DoublesEnough (rb : RingBuffer) (len : ℕ) : Prop :=
  len ≤ rb.writableBytes ∨ ∃ k,
    (∀ j < k, rb.readableBytes < rb.doubling j ∧
      rb.doubling j < rb.readableBytes + len + 1) ∧
    rb.readableBytes + len + 1 ≤ rb.doubling k ∧
    (rb.writePos + len + 1 ≤ rb.doubling k ∨ vectorMaxSize < rb.doubling k)

variable {rb : RingBuffer}

/-! ## The doubling loop -/

/-- **The loop stops at the first doubling whose test fails.** -/
theorem growLoop_eq_some_iff {fuel c : ℕ} {r n d : UInt64} :
    growLoop fuel (.ofNat c) r n = some d ↔
      ∃ k < fuel, (∀ j < k, UInt64.ofNat (c * 2 ^ j) - r - 1 < n) ∧
        ¬ UInt64.ofNat (c * 2 ^ k) - r - 1 < n ∧ d = .ofNat (c * 2 ^ k) := by
  induction fuel generalizing c with
  | zero => simp [growLoop]
  | succ fuel ih =>
    have hmul : UInt64.ofNat c * 2 = UInt64.ofNat (c * 2) := (UInt64.ofNat_mul c 2).symm
    have hpow : ∀ k, c * 2 * 2 ^ k = c * 2 ^ (k + 1) := fun k => by
      rw [Nat.mul_assoc, ← Nat.pow_succ']
    rw [growLoop]
    by_cases htest : UInt64.ofNat c - r - 1 < n
    · rw [if_pos htest, hmul, ih]
      constructor
      · rintro ⟨k, hk, hbefore, hstop, rfl⟩
        refine ⟨k + 1, by omega, fun j hj => ?_, by rwa [← hpow], by rw [hpow]⟩
        cases j with
        | zero => rwa [Nat.pow_zero, Nat.mul_one]
        | succ j =>
          rw [← hpow]
          exact hbefore j (by omega)
      · rintro ⟨k, hk, hbefore, hstop, rfl⟩
        cases k with
        | zero =>
          rw [Nat.pow_zero, Nat.mul_one] at hstop
          exact absurd htest hstop
        | succ k =>
          refine ⟨k, by omega, fun j hj => ?_, by rwa [hpow], by rw [hpow]⟩
          rw [hpow]
          exact hbefore (j + 1) (by omega)
    · rw [if_neg htest, Option.some.injEq]
      constructor
      · rintro rfl
        exact ⟨0, by omega, fun j hj => absurd hj (Nat.not_lt_zero j),
          by rwa [Nat.pow_zero, Nat.mul_one], by rw [Nat.pow_zero, Nat.mul_one]⟩
      · rintro ⟨k, hk, hbefore, hstop, rfl⟩
        cases k with
        | zero => rw [Nat.pow_zero, Nat.mul_one]
        | succ k =>
          have hfirst := hbefore 0 (Nat.succ_pos k)
          rw [Nat.pow_zero, Nat.mul_one] at hfirst
          exact absurd hfirst htest

/-- Behind 64 doublings there is nothing left to double. -/
theorem ofNat_doubling {k : ℕ} (hk : 64 ≤ k) (c : ℕ) : UInt64.ofNat (c * 2 ^ k) = 0 := by
  obtain ⟨m, rfl⟩ := Nat.exists_eq_add_of_le hk
  rw [Nat.pow_add, ← Nat.mul_assoc, Nat.mul_comm (c * 2 ^ 64), ← Nat.mul_assoc, UInt64.ofNat_mul]
  rfl

/-- **A loop that has not stopped after 65 tests never does.** -/
theorem growLoop_none {c : ℕ} {r n : UInt64} (h : growLoop 65 (.ofNat c) r n = none) (fuel : ℕ) :
    growLoop fuel (.ofNat c) r n = none := by
  cases hf : growLoop fuel (.ofNat c) r n with
  | none => rfl
  | some d =>
    obtain ⟨k, -, hbefore, hstop, -⟩ := growLoop_eq_some_iff.mp hf
    have hstops : ∀ m ≤ 64, (∀ j < m, UInt64.ofNat (c * 2 ^ j) - r - 1 < n) →
        UInt64.ofNat (c * 2 ^ m) - r - 1 < n := by
      intro m hm hbefore
      by_contra hstop
      have := growLoop_eq_some_iff.mpr ⟨m, Nat.lt_succ_of_le hm, hbefore, hstop, rfl⟩
      rw [h] at this
      cases this
    by_cases hk : k ≤ 64
    · exact absurd (hstops k hk hbefore) hstop
    · have := hstops 64 (Nat.le_refl 64) fun j hj => hbefore j (by omega)
      rw [ofNat_doubling (Nat.le_refl 64), ← ofNat_doubling (show 64 ≤ k by omega) c] at this
      exact absurd this hstop

/-! ## What a call leaves -/

/-- With nothing to do, `ensure_writable` returns. -/
theorem ensuresRoom_of_le {len : ℕ} (hfit : len ≤ rb.writableBytes) : rb.EnsuresRoom len := by
  simp only [EnsuresRoom, call, ensureWritable, expandIfNeeded, if_pos hfit]
  exact ⟨Nat.le_refl _, hfit⟩

/-- A loop that does not stop does not return. -/
theorem not_ensuresRoom_of_none {len : ℕ} (hg : rb.writableBytes < len)
    (hc : growLoop 65 (.ofNat rb.capacity) (.ofNat rb.readableBytes) (.ofNat len) = none) :
    ¬ rb.EnsuresRoom len := by
  simp only [EnsuresRoom, call, ensureWritable, expandIfNeeded, if_neg (Nat.not_le.mpr hg), hc,
    Option.map_none, not_false_iff]

/-- **A loop that stops** is right if the capacity cannot be allocated, or holds what is
asked for behind the write position. -/
theorem WellFormed.ensuresRoom_iff_of_some (h : rb.WellFormed) {len : ℕ} {c : UInt64}
    (hg : rb.writableBytes < len)
    (hc : growLoop 65 (.ofNat rb.capacity) (.ofNat rb.readableBytes) (.ofNat len) = some c) :
    rb.EnsuresRoom len ↔
      vectorMaxSize < c.toNat ∨ rb.capacity ≤ c.toNat ∧ rb.writePos + len + 1 ≤ c.toNat := by
  by_cases hmax : vectorMaxSize < c.toNat
  · have hthrow : rb.expandIfNeeded len = some (.error .lengthError) := by
      simp only [expandIfNeeded, if_neg (Nat.not_le.mpr hg), hc, Option.map_some, if_pos hmax]
    simp only [EnsuresRoom, call, ensureWritable, hthrow, hmax, true_or]
  · obtain ⟨buffer, hgrow, hbuffer, -⟩ := h.expandIfNeeded_of_growLoop hg hc hmax
    have hlt := h.readableBytes_lt
    have hw := h.writePos_lt
    have hcap : (⟨buffer, 0, rb.writePos⟩ : RingBuffer).capacity = buffer.length := rfl
    have hread : (⟨buffer, 0, rb.writePos⟩ : RingBuffer).readableBytes = rb.writePos := rfl
    simp only [EnsuresRoom, call, ensureWritable, hgrow, hmax, false_or, writableBytes, hcap, hread]
    split_ifs <;> omega

/-! ## When it is right -/

theorem doubling_eq (rb : RingBuffer) (k : ℕ) :
    (UInt64.ofNat (rb.capacity * 2 ^ k)).toNat = rb.doubling k :=
  UInt64.toNat_ofNat'

/-- **`ensure_writable` keeps its promise exactly where the doublings are large
enough.** -/
theorem Allocated.ensuresRoom_iff (h : rb.Allocated) (len : UInt64) :
    rb.EnsuresRoom len.toNat ↔ rb.DoublesEnough len.toNat := by
  have hlt := h.readableBytes_lt
  have hmaxcap := h.capacity_le
  have hwr := h.writableBytes_eq
  have hlen : len.toNat < 2 ^ 64 := len.toNat_lt
  unfold vectorMaxSize at hmaxcap
  have htest : ∀ k, UInt64.ofNat (rb.capacity * 2 ^ k) - UInt64.ofNat rb.readableBytes - 1
      < UInt64.ofNat len.toNat ↔
        if rb.readableBytes < rb.doubling k
        then rb.doubling k < rb.readableBytes + len.toNat + 1
        else 2 ^ 64 + rb.doubling k < rb.readableBytes + len.toNat + 1 := fun k =>
    growTest_iff (by omega) hlen
  have hbound : ∀ k, rb.doubling k < 2 ^ 64 := fun k => Nat.mod_lt _ (by omega)
  by_cases hfit : len.toNat ≤ rb.writableBytes
  · exact ⟨fun _ => .inl hfit, fun _ => ensuresRoom_of_le hfit⟩
  have hg : rb.writableBytes < len.toNat := by omega
  constructor
  · intro hroom
    right
    cases hc : growLoop 65 (.ofNat rb.capacity) (.ofNat rb.readableBytes) (.ofNat len.toNat) with
    | none => exact absurd hroom (not_ensuresRoom_of_none hg hc)
    | some c =>
      have hright := (h.ensuresRoom_iff_of_some hg hc).mp hroom
      obtain ⟨k, -, hbefore, hstop, rfl⟩ := growLoop_eq_some_iff.mp hc
      rw [doubling_eq] at hright
      rw [htest] at hstop
      unfold vectorMaxSize at hright ⊢
      -- it has stopped beyond the stored bytes, so that there has been no accident before
      have hk := hbound k
      have hread : rb.readableBytes < rb.doubling k := by omega
      rw [if_pos hread] at hstop
      refine ⟨k, fun j hj => ?_, by omega, by omega⟩
      have hsmall := (htest j).mp (hbefore j hj)
      split_ifs at hsmall with hj' <;> omega
  · rintro (hle | ⟨k, hbefore, hstop, hright⟩)
    · exact absurd hle hfit
    · have hk : k < 65 := by
        by_contra hk
        have hzero : rb.doubling 64 = 0 := Nat.mul_mod_left ..
        have := (hbefore 64 (by omega)).1
        omega
      have hc : growLoop 65 (.ofNat rb.capacity) (.ofNat rb.readableBytes) (.ofNat len.toNat)
          = some (.ofNat (rb.capacity * 2 ^ k)) := by
        refine growLoop_eq_some_iff.mpr ⟨k, hk, fun j hj => ?_, ?_, rfl⟩
        · obtain ⟨hread, hsmall⟩ := hbefore j hj
          rw [htest, if_pos hread]
          exact hsmall
        · rw [htest, if_pos (by omega)]
          omega
      rw [h.ensuresRoom_iff_of_some hg hc, doubling_eq]
      omega

/-- **It is right in a buffer that is read from its first cell**, as long as half of
`size_t` is enough. -/
theorem Allocated.ensuresRoom_of_readPos (h : rb.Allocated) (hzero : rb.readPos = 0)
    {len : UInt64} (hlen : rb.readableBytes + len.toNat + 1 ≤ 2 ^ 63) :
    rb.EnsuresRoom len.toNat := by
  have hlt := h.readableBytes_lt
  have hcap := h.capacity_le
  unfold vectorMaxSize at hcap
  have hw : rb.writePos = rb.readableBytes := by
    rw [readableBytes, if_pos (hzero ▸ Nat.zero_le _), hzero, Nat.sub_zero]
  have hexists : ∃ k, rb.readableBytes + len.toNat + 1 ≤ rb.capacity * 2 ^ k := by
    refine ⟨63, hlen.trans ?_⟩
    exact Nat.le_mul_of_pos_left _ (by omega)
  have hgrows : ∀ j, rb.capacity ≤ rb.capacity * 2 ^ j := fun j =>
    Nat.le_mul_of_pos_right _ (Nat.two_pow_pos j)
  -- the first doubling that is large enough, and the one in front of it
  set k := Nat.find hexists with hk
  have hlarge : rb.readableBytes + len.toNat + 1 ≤ rb.capacity * 2 ^ k := Nat.find_spec hexists
  have hsmall : ∀ j < k, rb.capacity * 2 ^ j < rb.readableBytes + len.toNat + 1 := fun j hj =>
    Nat.lt_of_not_le (Nat.find_min hexists hj)
  have hfits : rb.capacity * 2 ^ k < 2 ^ 64 := by
    cases hk' : k with
    | zero => omega
    | succ j =>
      have := hsmall j (by omega)
      rw [Nat.pow_succ, ← Nat.mul_assoc]
      omega
  refine (h.ensuresRoom_iff len).mpr (.inr ⟨k, fun j hj => ?_, ?_, .inl ?_⟩)
  · have hj' := hsmall j hj
    have := hgrows j
    rw [doubling, Nat.mod_eq_of_lt (by omega)]
    exact ⟨by omega, hj'⟩
  · rw [doubling, Nat.mod_eq_of_lt hfits]
    exact hlarge
  · rw [doubling, Nat.mod_eq_of_lt hfits, hw]
    exact hlarge

/-! ## What goes wrong -/

/-- `RingBuffer(4)`. -/
def fresh : RingBuffer := ⟨[0, 0, 0, 0], 0, 0⟩

theorem fresh_allocated : fresh.Allocated := ⟨⟨by decide, by decide, by decide⟩, by decide⟩

/-- `RingBuffer(8)` with seven bytes written and six of them read. -/
def sixRead : RingBuffer := ⟨[1, 2, 3, 4, 5, 6, 7, 0], 6, 7⟩

/-- Asked for `2 ^ 63` bytes the new buffer is left without a cell. Of the sixteen cells
that `sixRead` gets for nine bytes only eight can be written. And a buffer with a single
byte at its front does not return when asked for `2 ^ 64 - 1` bytes. -/
theorem fresh_not_ensuresRoom :
    fresh.ensureWritable (2 ^ 63) = some (.ok ⟨[], 0, 0⟩) ∧ ¬ fresh.EnsuresRoom (2 ^ 63) ∧
      ¬ sixRead.EnsuresRoom 9 ∧
      (⟨[7, 0, 0, 0], 0, 1⟩ : RingBuffer).ensureWritable (2 ^ 64 - 1) = none := by
  have hfresh : fresh.ensureWritable (2 ^ 63) = some (.ok ⟨[], 0, 0⟩) := by decide
  have hsix : sixRead.ensureWritable 9 = some (.ok ⟨7 :: List.replicate 15 0, 0, 7⟩) := by decide
  refine ⟨hfresh, fun h => ?_, fun h => ?_, by decide⟩
  · simp only [EnsuresRoom, call, hfresh] at h
    exact absurd h.1 (by decide)
  · simp only [EnsuresRoom, call, hsix] at h
    exact absurd h.2 (by decide)

/-- The equivalence for that buffer and that length. -/
theorem ensuresRoom_iff_fresh :
    fresh.EnsuresRoom (UInt64.ofNat (2 ^ 63)).toNat
      ↔ fresh.DoublesEnough (UInt64.ofNat (2 ^ 63)).toNat :=
  fresh_allocated.ensuresRoom_iff (.ofNat (2 ^ 63))

end RingBuffer
