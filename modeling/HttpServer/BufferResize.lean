import HttpServer.SplitMerge
import Mathlib.Tactic.SplitIfs

/-!
# Resizing a buffer

`IBufferOperator::Resize` has two branches. With enough capacity it sets the size to the one asked
for; otherwise it moves the valid bytes to a larger block and leaves their number as it is. So what
it does to a buffer that is to grow depends on the capacity, which its users do not see: either no
byte is added, or the bytes that happen to be in the block become valid, written or not.

`resizeAlike_iff` compares two buffers with the same valid bytes.
-/

namespace BufferOperator

/-- `Resize`; `granted` is whether the pool gives the memory for a larger block. -/
def resize (buffer : Buffer) (newSize : UInt64) (granted : Bool) :
    Except StdException (Buffer × Bool) :=
  if newSize ≤ buffer.capacity then (buffer.resize newSize).map fun b => (b, true)
  else
    match createBuffer newSize granted with
    | none => .ok (buffer, false)
    | some newBuf =>
      let newBuf := newBuf.store 0 (buffer.memory.read 0 buffer.size.toNat)
      (newBuf.resize buffer.size).map fun b => (b, true)

/-- Every byte that has become valid has been written. -/
def NewWritten (b r : Buffer) : Prop := ∀ i, b.valid.length ≤ i → r.valid[i]? ≠ some none

/-- **A resize does not depend on spare capacity**: two buffers with the same valid bytes have the
same ones afterwards, cut to the new size if that is not more, and room for that size, and nothing
is valid that has not been written. -/
structure ResizeAlike (b₁ b₂ : Buffer) (newSize : UInt64) (r₁ r₂ : Buffer) : Prop where
  valid_eq : r₁.valid = r₂.valid
  cut : newSize ≤ b₁.size → r₁.valid = b₁.valid.take newSize.toNat
  room : newSize ≤ r₁.capacity ∧ newSize ≤ r₂.capacity
  written : NewWritten b₁ r₁ ∧ NewWritten b₂ r₂

variable {b b₁ b₂ r r₁ r₂ : Buffer} {n : UInt64} {granted granted₁ granted₂ : Bool}

/-- **In place** the size becomes the new one, whatever is in the block. -/
theorem resize_in_place (hle : n ≤ b.capacity) (h : resize b n granted = .ok (r, true)) :
    r = b.resized n hle := by
  rw [resize, if_pos hle, resize_of_le hle] at h
  cases h
  rfl

/-- **With a larger block** the valid bytes are what they were. -/
theorem resize_realloc (hlt : b.capacity < n) (h : resize b n granted = .ok (r, true)) :
    r.valid = b.valid ∧ r.capacity = n := by
  rw [resize, if_neg (UInt64.not_le.mpr hlt)] at h
  split at h
  · cases h
  · rename_i newBuf hbuf
    unfold createBuffer at hbuf
    split_ifs at hbuf
    cases hbuf
    have hsize : b.size ≤ ((Buffer.make (fun _ => none) n).store 0
        (b.memory.read 0 b.size.toNat)).capacity :=
      UInt64.le_trans b.size_le (UInt64.le_of_lt hlt)
    dsimp only at h
    rw [resize_of_le hsize] at h
    cases h
    refine ⟨?_, rfl⟩
    have hself := Memory.read_write_self (fun _ => none) 0 b.valid
    rw [length_valid] at hself
    exact hself

theorem getElem?_valid (b : Buffer) (i : ℕ) :
    b.valid[i]? = if i < b.size.toNat then some (b.memory i) else none := by
  rw [Buffer.valid, Memory.getElem?_read, Nat.zero_add]

/-- Two buffers with the same valid bytes are of one size. -/
theorem size_eq_of_valid (hvalid : b₁.valid = b₂.valid) : b₁.size.toNat = b₂.size.toNat := by
  rw [← length_valid, hvalid, length_valid]

/-- **Where both stay in place**, the cells that become valid have to agree, and to have been
written. -/
theorem resizeAlike_in_place (hvalid : b₁.valid = b₂.valid) (hle₁ : n ≤ b₁.capacity)
    (hle₂ : n ≤ b₂.capacity) :
    ResizeAlike b₁ b₂ n (b₁.resized n hle₁) (b₂.resized n hle₂) ↔
      ∀ i, b₁.size.toNat ≤ i → i < n.toNat →
        b₁.memory i = b₂.memory i ∧ b₁.memory i ≠ none := by
  have hsize := size_eq_of_valid hvalid
  have hcells : ∀ i < b₁.size.toNat, b₁.memory i = b₂.memory i := by
    intro i hi
    have := congrArg (·[i]?) hvalid
    simp only [getElem?_valid, if_pos hi, if_pos (hsize ▸ hi)] at this
    exact Option.some.inj this
  have hafter : ∀ {b : Buffer} (hle : n ≤ b.capacity) (i : ℕ),
      (b.resized n hle).valid[i]? = if i < n.toNat then some (b.memory i) else none :=
    fun hle i => getElem?_valid (Buffer.resized _ n hle) i
  constructor
  · intro h i hi hn
    have heq := congrArg (·[i]?) h.valid_eq
    simp only [hafter, if_pos hn] at heq
    have hw := h.written.1 i (by rwa [length_valid])
    rw [hafter, if_pos hn] at hw
    exact ⟨Option.some.inj heq, fun hnone => hw (congrArg some hnone)⟩
  · intro h
    have hagree : ∀ i < n.toNat, b₁.memory i = b₂.memory i := fun i hi => by
      by_cases hold : i < b₁.size.toNat
      · exact hcells i hold
      · exact (h i (Nat.le_of_not_lt hold) hi).1
    refine ⟨List.ext_getElem? fun i => ?_, fun hcut => ?_, ⟨hle₁, hle₂⟩, fun i hi => ?_,
      fun i hi => ?_⟩
    · rw [hafter, hafter]
      split
      · rw [hagree i ‹_›]
      · rfl
    · have hcut := UInt64.le_iff_toNat_le.mp hcut
      refine List.ext_getElem? fun i => ?_
      rw [hafter, List.getElem?_take, getElem?_valid]
      split
      · rw [if_pos (by omega)]
      · rfl
    · rw [length_valid] at hi
      rw [hafter]
      split
      · exact fun hnone => (h i hi ‹_›).2 (Option.some.inj hnone)
      · exact (Option.some_ne_none none).symm
    · rw [length_valid, ← hsize] at hi
      rw [hafter]
      split
      · rename_i hn
        rw [← hagree i hn]
        exact fun hnone => (h i hi hn).2 (Option.some.inj hnone)
      · exact (Option.some_ne_none none).symm

/-- **Where both get a larger block** they keep their bytes. -/
theorem resizeAlike_realloc (hvalid : b₁.valid = b₂.valid) (hlt₁ : b₁.capacity < n)
    (hlt₂ : b₂.capacity < n) (h₁ : resize b₁ n granted₁ = .ok (r₁, true))
    (h₂ : resize b₂ n granted₂ = .ok (r₂, true)) : ResizeAlike b₁ b₂ n r₁ r₂ := by
  obtain ⟨hv₁, hcap₁⟩ := resize_realloc hlt₁ h₁
  obtain ⟨hv₂, hcap₂⟩ := resize_realloc hlt₂ h₂
  have hgrow : b₁.size < n := UInt64.lt_of_le_of_lt b₁.size_le hlt₁
  refine ⟨by rw [hv₁, hv₂, hvalid], fun hcut => absurd hcut (UInt64.not_le.mpr hgrow),
    ⟨hcap₁ ▸ UInt64.le_refl n, hcap₂ ▸ UInt64.le_refl n⟩, fun i hi => ?_, fun i hi => ?_⟩
  · rw [hv₁, List.getElem?_eq_none hi]
    exact (Option.some_ne_none none).symm
  · rw [hv₂, List.getElem?_eq_none hi]
    exact (Option.some_ne_none none).symm

/-- The size afterwards depends on the branch. -/
theorem size_of_resize (h : resize b n granted = .ok (r, true)) :
    r.size = if n ≤ b.capacity then n else b.size := by
  split
  · rename_i hle
    rw [resize_in_place hle h]
    rfl
  · rename_i hle
    exact UInt64.toNat_inj.mp (size_eq_of_valid (resize_realloc (UInt64.not_le.mp hle) h).1)

/-- **Two buffers with the same valid bytes are resized alike** exactly if no byte is to be added,
or both get a larger block, or both stay in place and the cells that become valid are the same and
have been written. -/
theorem resizeAlike_iff (hvalid : b₁.valid = b₂.valid)
    (h₁ : resize b₁ n granted₁ = .ok (r₁, true)) (h₂ : resize b₂ n granted₂ = .ok (r₂, true)) :
    ResizeAlike b₁ b₂ n r₁ r₂ ↔ n ≤ b₁.size ∨ (b₁.capacity < n ∧ b₂.capacity < n) ∨
      (n ≤ b₁.capacity ∧ n ≤ b₂.capacity ∧
        ∀ i, b₁.size.toNat ≤ i → i < n.toNat →
          b₁.memory i = b₂.memory i ∧ b₁.memory i ≠ none) := by
  have hsize : b₁.size = b₂.size := UInt64.toNat_inj.mp (size_eq_of_valid hvalid)
  have hsame (h : ResizeAlike b₁ b₂ n r₁ r₂) : r₁.size = r₂.size :=
    UInt64.toNat_inj.mp (size_eq_of_valid h.valid_eq)
  rw [size_of_resize h₁, size_of_resize h₂] at hsame
  by_cases hle₁ : n ≤ b₁.capacity
  · by_cases hle₂ : n ≤ b₂.capacity
    · -- both in place
      rw [resize_in_place hle₁ h₁, resize_in_place hle₂ h₂, resizeAlike_in_place hvalid hle₁ hle₂]
      constructor
      · exact fun h => .inr (.inr ⟨hle₁, hle₂, h⟩)
      · rintro (hcut | ⟨hlt, -⟩ | ⟨-, -, h⟩) i hi hn
        · have := UInt64.le_iff_toNat_le.mp hcut
          omega
        · exact absurd hle₁ (UInt64.not_le.mpr hlt)
        · exact h i hi hn
    · -- the first one in place, and a larger block for the second one
      have hgrow : b₁.size < n :=
        hsize ▸ UInt64.lt_of_le_of_lt b₂.size_le (UInt64.not_le.mp hle₂)
      rw [if_pos hle₁, if_neg hle₂, ← hsize] at hsame
      refine iff_of_false (fun h => UInt64.ne_of_lt hgrow (hsame h).symm) ?_
      rintro (hcut | ⟨hlt, -⟩ | ⟨-, hle, -⟩)
      · exact absurd hcut (UInt64.not_le.mpr hgrow)
      · exact absurd hle₁ (UInt64.not_le.mpr hlt)
      · exact absurd hle hle₂
  · have hlt₁ := UInt64.not_le.mp hle₁
    have hgrow : b₁.size < n := UInt64.lt_of_le_of_lt b₁.size_le hlt₁
    by_cases hle₂ : n ≤ b₂.capacity
    · -- a larger block for the first one, and the second one in place
      rw [if_neg hle₁, if_pos hle₂] at hsame
      refine iff_of_false (fun h => UInt64.ne_of_lt hgrow (hsame h)) ?_
      rintro (hcut | ⟨-, hlt⟩ | ⟨hle, -⟩)
      · exact absurd hcut (UInt64.not_le.mpr hgrow)
      · exact absurd hle₂ (UInt64.not_le.mpr hlt)
      · exact absurd hle hle₁
    · -- a larger block for both
      have hlt₂ := UInt64.not_le.mp hle₂
      exact iff_of_true (resizeAlike_realloc hvalid hlt₁ hlt₂ h₁ h₂) (.inr (.inl ⟨hlt₁, hlt₂⟩))

/-- Five bytes in a block of at least as many. -/
def hello (capacity : UInt64) (h : 5 ≤ capacity) : Buffer where
  memory := fun i => if i < 5 then some 72 else none
  size := 5
  capacity := capacity
  size_le := h

def helloTen : Buffer := hello 10 (by decide)

def helloTwenty : Buffer := hello 20 (by decide)

/-- Resized to twenty, the first one keeps its five bytes, in a larger block; the second one has
twenty valid bytes, of which fifteen have not been written. -/
theorem hello_not_resizeAlike :
    helloTen.valid = helloTwenty.valid ∧
      ∃ r₁ r₂, resize helloTen 20 true = .ok (r₁, true) ∧
        resize helloTwenty 20 true = .ok (r₂, true) ∧
        r₁.size = 5 ∧ r₂.size = 20 ∧ r₂.valid[5]? = some none ∧
        ¬ ResizeAlike helloTen helloTwenty 20 r₁ r₂ := by
  refine ⟨rfl, _, _, rfl, rfl, rfl, rfl, rfl, fun h => ?_⟩
  exact absurd (congrArg List.length h.valid_eq) (by decide)

/-- The equivalence for these two. -/
theorem resizeAlike_iff_hello :
    ∃ r₁ r₂, resize helloTen 20 true = .ok (r₁, true) ∧
      resize helloTwenty 20 true = .ok (r₂, true) ∧
      (ResizeAlike helloTen helloTwenty 20 r₁ r₂ ↔ 20 ≤ helloTen.size ∨
        (helloTen.capacity < 20 ∧ helloTwenty.capacity < 20) ∨
        (20 ≤ helloTen.capacity ∧ 20 ≤ helloTwenty.capacity ∧
          ∀ i, helloTen.size.toNat ≤ i → i < (20 : UInt64).toNat →
            helloTen.memory i = helloTwenty.memory i ∧ helloTen.memory i ≠ none)) := by
  refine ⟨_, _, rfl, rfl, ?_⟩
  have h₁ : resize helloTen 20 true = .ok (_, true) := rfl
  have h₂ : resize helloTwenty 20 true = .ok (_, true) := rfl
  exact resizeAlike_iff rfl h₁ h₂

end BufferOperator
