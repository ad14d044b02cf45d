import HttpServer.RingBuffer
import Mathlib.Order.Interval.Finset.Nat

/-!
# The zero-copy areas of the ring buffer

With `readable_areas` and `writable_areas` a caller works on the cells of
`RingBuffer` in place, and says afterwards with `has_read` or `has_written` how
far it got. `ExactAreas` is what it relies on: the readable areas are the stored
bytes; the writable ones are free cells, as many as `writable_bytes()`; and to
fill them all is to append what they were filled with.

The readable areas are always exact. Of the writable ones, one cell has to stay
unused, and where the free cells go around the end of the vector –
`0 < read_pos_ ≤ write_pos_` – the second area takes all the cells in front of the
read position, that one included. `WellFormed.exactAreas_iff` says that this
configuration is the only one where the areas are not exact.
-/

namespace Iovec

/-- The cells of the buffer that belong to the area. -/
def cells (v : Iovec) : Finset ℕ :=
  match v.data with
  | none => ∅
  | some off => Finset.Ico off (off + v.len)

/-- The area lies in a buffer of so many cells; `nullptr` points to no bytes. -/
def Inside (v : Iovec) (capacity : ℕ) : Prop :=
  match v.data with
  | none => v.len = 0
  | some off => off + v.len ≤ capacity

end Iovec

namespace RingBuffer

/-- What the caller does with an area of `writable_areas`: it copies bytes there. -/
def fill (rb : RingBuffer) (v : Iovec) (data : Bytes) : RingBuffer :=
  match v.data with
  | none => rb
  | some off => { rb with buffer := Circular.overwrite rb.buffer off data }

/-- **The areas are exact.** -/
structure ExactAreas (rb : RingBuffer) : Prop where
  readable_eq :
    rb.bytesAt rb.readableAreas.1 ++ rb.bytesAt rb.readableAreas.2 = rb.contents
  readable_sum : rb.readableAreas.1.len + rb.readableAreas.2.len = rb.readableBytes
  writable_inside :
    rb.writableAreas.1.Inside rb.capacity ∧ rb.writableAreas.2.Inside rb.capacity
  writable_disjoint : Disjoint rb.writableAreas.1.cells rb.writableAreas.2.cells
  writable_free : Disjoint (rb.writableAreas.1.cells ∪ rb.writableAreas.2.cells)
    (rb.readableAreas.1.cells ∪ rb.readableAreas.2.cells)
  writable_sum : rb.writableAreas.1.len + rb.writableAreas.2.len = rb.writableBytes
  /-- Filling both areas and reporting it appends what they were filled with. -/
  filled : ∀ first second : Bytes, first.length = rb.writableAreas.1.len →
    second.length = rb.writableAreas.2.len →
    ∃ rb', ((rb.fill rb.writableAreas.1 first).fill rb.writableAreas.2 second).hasWritten
        (rb.writableAreas.1.len + rb.writableAreas.2.len) = .ok rb'
      ∧ rb'.empty = false ∧ rb'.contents = rb.contents ++ (first ++ second)

variable {rb : RingBuffer}

/-! ## The readable areas -/

theorem WellFormed.readable_sum (h : rb.WellFormed) :
    rb.readableAreas.1.len + rb.readableAreas.2.len = rb.readableBytes := by
  have hr := h.readPos_lt
  have hw := h.writePos_lt
  unfold readableAreas
  split_ifs with h₁ h₂ h₃
  · exact (empty_iff_readableBytes.mp h₁).symm
  · simp only [readableBytes, if_pos h₂.le, Nat.add_zero]
  all_goals
    rw [empty_iff_readableBytes] at h₁
    unfold readableBytes at h₁ ⊢
    split_ifs at h₁ ⊢ <;> dsimp only <;> omega

/-- The cells of the readable areas: those between the two positions, or, if these
are the other way round, those that are not between them. -/
theorem WellFormed.mem_readable (h : rb.WellFormed) {x : ℕ}
    (hx : x ∈ rb.readableAreas.1.cells ∪ rb.readableAreas.2.cells) :
    rb.readPos ≤ x ∧ x < rb.writePos ∨
      rb.writePos < rb.readPos ∧ (rb.readPos ≤ x ∨ x < rb.writePos) := by
  have hne : ¬ rb.empty → rb.readPos ≠ rb.writePos := by
    intro h₁ heq
    rw [empty_iff_readableBytes] at h₁
    exact h₁ (by rw [readableBytes, if_pos heq.le, heq, Nat.sub_self])
  have hw := h.writePos_lt
  unfold readableAreas at hx
  split_ifs at hx with h₁ h₂ h₃
  · simp [Iovec.cells] at hx
  · simp only [Iovec.cells, Finset.union_empty, Finset.mem_Ico] at hx
    exact .inl (by omega)
  · have := hne h₁
    simp only [Iovec.cells, Finset.mem_union, Finset.mem_Ico] at hx
    exact .inr (by omega)
  · have := hne h₁
    simp only [Iovec.cells, Finset.union_empty, Finset.mem_Ico] at hx
    exact .inr (by omega)

/-! ## The writable areas -/

/-- **Where the free cells do not go around the end there is one writable area**,
behind the write position, with all the cells that may be written. -/
theorem WellFormed.writableAreas_eq (h : rb.WellFormed)
    (hgap : ¬ (0 < rb.readPos ∧ rb.readPos ≤ rb.writePos)) :
    rb.writableBytes = 0 ∧ rb.writableAreas = (⟨none, 0⟩, ⟨none, 0⟩) ∨
      rb.writableAreas = (⟨some rb.writePos, rb.writableBytes⟩, ⟨none, 0⟩)
        ∧ rb.writePos + rb.writableBytes ≤ rb.capacity
        ∧ (rb.writePos < rb.readPos → rb.writePos + rb.writableBytes ≤ rb.readPos) := by
  have hsum := h.writableBytes_eq
  have hr := h.readPos_lt
  have hw := h.writePos_lt
  have hf : rb.full = true ↔ rb.writableBytes = 0 := by simp [full]
  unfold writableAreas
  by_cases h₁ : rb.full
  · exact .inl ⟨hf.mp h₁, if_pos h₁⟩
  · rw [if_neg h₁]
    right
    by_cases h₂ : rb.writePos < rb.readPos
    · have hn : rb.readPos - rb.writePos - 1 = rb.writableBytes := by
        unfold readableBytes at hsum
        split_ifs at hsum <;> omega
      rw [if_pos h₂, hn]
      exact ⟨rfl, by omega, by omega⟩
    · have h₃ : ¬ 0 < rb.readPos := fun hp => hgap ⟨hp, by omega⟩
      have hn : rb.capacity - rb.writePos - 1 = rb.writableBytes := by
        unfold readableBytes at hsum
        split_ifs at hsum <;> omega
      rw [if_neg h₂, if_neg h₃, hn]
      exact ⟨rfl, by omega, by omega⟩

/-- **Where they do, the areas have one byte too many.** -/
theorem WellFormed.writable_sum_gap (h : rb.WellFormed)
    (hgap : 0 < rb.readPos ∧ rb.readPos ≤ rb.writePos) :
    rb.writableAreas.1.len + rb.writableAreas.2.len = rb.writableBytes + 1 := by
  have hsum := h.writableBytes_eq
  have hw := h.writePos_lt
  have hf : rb.full = true ↔ rb.writableBytes = 0 := by simp [full]
  rw [readableBytes, if_pos hgap.2] at hsum
  have h₁ : ¬ rb.full := by
    rw [hf]
    omega
  rw [writableAreas, if_neg h₁, if_neg (by omega), if_pos hgap.1, if_neg (by omega)]
  show rb.capacity - rb.writePos + rb.readPos = _
  omega

/-- To fill them completely is to write over the unused cell, and `has_written`
throws. -/
theorem WellFormed.hasWritten_gap (h : rb.WellFormed)
    (hgap : 0 < rb.readPos ∧ rb.readPos ≤ rb.writePos) :
    rb.hasWritten (rb.writableAreas.1.len + rb.writableAreas.2.len) = .error .outOfRange := by
  rw [h.writable_sum_gap hgap]
  exact if_pos (Nat.lt_succ_self _)

/-- `has_written` moves the write position behind what has been written there. -/
theorem hasWritten_of_written {buffer data : Bytes}
    (hwritten : Circular.Written rb.buffer buffer rb.writePos data)
    (hfit : data.length ≤ rb.writableBytes) :
    (⟨buffer, rb.readPos, rb.writePos⟩ : RingBuffer).hasWritten data.length
      = .ok ⟨buffer, rb.readPos, (rb.writePos + data.length) % rb.capacity⟩ := by
  have hcap : (⟨buffer, rb.readPos, rb.writePos⟩ : RingBuffer).capacity = rb.capacity :=
    hwritten.length_eq
  have hread : (⟨buffer, rb.readPos, rb.writePos⟩ : RingBuffer).readableBytes
      = rb.readableBytes := by
    unfold readableBytes
    rw [hcap]
  have hroom : (⟨buffer, rb.readPos, rb.writePos⟩ : RingBuffer).writableBytes
      = rb.writableBytes := by
    unfold writableBytes
    rw [hcap, hread]
  rw [hasWritten, hroom, if_neg (Nat.not_lt.mpr hfit), hcap]

/-- A buffer with a byte in it does not look empty. -/
theorem WellFormed.empty_eq_false (h : rb.WellFormed) (hc : rb.contents ≠ []) :
    rb.empty = false := by
  have hl := h.length_contents
  have : 0 < rb.contents.length := List.length_pos_iff.mpr hc
  simp only [empty, beq_eq_false_iff_ne, ne_eq]
  omega

/-- **The zero-copy areas are exact unless the free cells go around the end of the
vector.** -/
theorem WellFormed.exactAreas_iff (h : rb.WellFormed) :
    rb.ExactAreas ↔ ¬ (0 < rb.readPos ∧ rb.readPos ≤ rb.writePos) := by
  constructor
  · intro hexact hgap
    have := hexact.writable_sum
    rw [h.writable_sum_gap hgap] at this
    omega
  · intro hgap
    have hsum := h.writableBytes_eq
    have hfour := h.four_le
    have hlen := h.length_contents
    obtain ⟨hz, he⟩ | ⟨he, hcap, hfree⟩ := h.writableAreas_eq hgap
    · -- the buffer is full
      refine ⟨h.bytesAt_readableAreas, h.readable_sum, ?_, ?_, ?_, ?_, ?_⟩
      all_goals rw [he]
      · exact ⟨rfl, rfl⟩
      · simp [Iovec.cells]
      · simp [Iovec.cells]
      · exact hz.symm
      · intro first second h₁ h₂
        obtain rfl := List.length_eq_zero_iff.mp h₁
        obtain rfl := List.length_eq_zero_iff.mp h₂
        have hmod : rb.writePos % rb.capacity = rb.writePos := Nat.mod_eq_of_lt h.writePos_lt
        refine ⟨rb, ?_, h.empty_eq_false fun hnil => ?_, by simp⟩
        · simp only [fill, hasWritten, Nat.not_lt_zero, if_false, Nat.add_zero, hmod]
        · rw [hnil, List.length_nil] at hlen
          omega
    · refine ⟨h.bytesAt_readableAreas, h.readable_sum, ?_, ?_, ?_, ?_, ?_⟩
      · rw [he]
        exact ⟨hcap, rfl⟩
      · rw [he]
        exact Finset.disjoint_empty_right _
      · refine Finset.disjoint_left.mpr fun x hx hx' => ?_
        rw [he] at hx
        simp only [Iovec.cells, Finset.union_empty, Finset.mem_Ico] at hx
        have := h.mem_readable hx'
        omega
      · rw [he]
        rfl
      · rw [he]
        intro first second h₁ h₂
        obtain rfl := List.length_eq_zero_iff.mp h₂
        have h₁' : first.length = rb.writableBytes := h₁
        have hfits : rb.writePos + first.length ≤ rb.buffer.length := by
          rw [h₁']
          exact hcap
        have hwritten := Circular.written_overwrite hfits
        obtain ⟨hwf, hcont⟩ := h.of_written hwritten h₁'.le
        refine ⟨_, ?_, hwf.empty_eq_false fun hnil => ?_, by rw [hcont, List.append_nil]⟩
        · rw [Nat.add_zero, ← h₁']
          exact hasWritten_of_written hwritten h₁'.le
        · have : (rb.contents ++ first).length = 0 := by rw [← hcont, hnil, List.length_nil]
          rw [List.length_append] at this
          omega

/-- Four cells, one byte stored in the second of them. -/
def oneByte : RingBuffer := ⟨[0, 7, 0, 0], 1, 2⟩

theorem oneByte_wellFormed : oneByte.WellFormed := ⟨by decide, by decide, by decide⟩

/-- Two bytes may be written behind the stored one; the areas have three, and
`has_written` of three throws. -/
theorem oneByte_not_exactAreas : oneByte.WellFormed ∧ ¬ oneByte.ExactAreas ∧
    oneByte.writableBytes = 2 ∧ oneByte.writableAreas = (⟨some 2, 2⟩, ⟨some 0, 1⟩) ∧
    oneByte.hasWritten 3 = .error .outOfRange :=
  ⟨oneByte_wellFormed, fun h => absurd h.writable_sum (by decide), by decide, by decide, rfl⟩

/-- The equivalence there. -/
theorem exactAreas_iff_oneByte :
    oneByte.ExactAreas ↔ ¬ (0 < oneByte.readPos ∧ oneByte.readPos ≤ oneByte.writePos) :=
  oneByte_wellFormed.exactAreas_iff

end RingBuffer
