import HttpServer.CopyPaths

/-!
# Shrinking the ring buffer

`shrink_to_fit` gives a large vector back: an empty buffer keeps its first 1024
cells, and any other one is copied into a vector with twice the cells it needs, and
at least 1024. Readers do not notice (`WellFormed.shrinkToFit_spec`): what is stored
stays, and there is room afterwards if there was room before.
-/

namespace RingBuffer

/-- `shrink_to_fit`. -/
def shrinkToFit (rb : RingBuffer) : RingBuffer :=
  if rb.empty then
    let buffer := if 1024 < rb.capacity then rb.buffer.take 1024 else rb.buffer
    ⟨buffer, 0, 0⟩
  else
    let readable := rb.readableBytes
    let newCapacity := max (readable * 2) 1024
    let newCapacity := min newCapacity rb.capacity
    if rb.capacity ≤ newCapacity then rb
    else
      let newBuffer : Bytes := List.replicate newCapacity 0
      let areas := rb.readableAreas
      let first := rb.bytesAt areas.1
      let second := rb.bytesAt areas.2
      let newBuffer :=
        Circular.overwrite (Circular.overwrite newBuffer 0 first) first.length second
      ⟨newBuffer, 0, readable⟩

variable {rb : RingBuffer}

/-- **An empty buffer** is reset, with at most 1024 cells. -/
theorem shrinkToFit_of_empty (he : rb.empty = true) :
    ∃ buffer : Bytes, rb.shrinkToFit = ⟨buffer, 0, 0⟩ ∧ buffer.length = min rb.capacity 1024 := by
  refine ⟨_, if_pos he, ?_⟩
  have hcap : rb.buffer.length = rb.capacity := rfl
  split
  · rw [List.length_take, Nat.min_comm, hcap]
  · omega

/-- **Any other buffer** is left as it is, or its bytes are moved to the front of a
smaller vector that has room for one more. -/
theorem WellFormed.shrinkToFit_of_not_empty (h : rb.WellFormed) (he : ¬ rb.empty = true) :
    rb.shrinkToFit = rb ∧ rb.capacity ≤ max (rb.readableBytes * 2) 1024 ∨
      ∃ buffer : Bytes, rb.shrinkToFit = ⟨buffer, 0, rb.readableBytes⟩
        ∧ buffer.length = max (rb.readableBytes * 2) 1024 ∧ buffer.length < rb.capacity
        ∧ buffer.take rb.readableBytes = rb.contents := by
  have hlen := h.length_contents
  simp only [shrinkToFit, if_neg he]
  by_cases hle : rb.capacity ≤ max (rb.readableBytes * 2) 1024
  · exact .inl ⟨if_pos (by rw [Nat.min_eq_right hle]), hle⟩
  · rw [if_neg (by omega), Nat.min_eq_left (by omega), h.overwrite_areas]
    refine .inr ⟨_, rfl, ?_, ?_, List.take_left' hlen⟩
    all_goals
      rw [List.length_append, hlen, List.length_drop, List.length_replicate]
      omega

/-- A buffer is full when the free cell is the last one. -/
theorem WellFormed.full_iff (h : rb.WellFormed) :
    rb.full = true ↔ rb.readableBytes + 1 = rb.capacity := by
  have hcap := h.writableBytes_eq
  simp only [full, beq_iff_eq]
  omega

/-- **`shrink_to_fit` is invisible to readers.** -/
theorem WellFormed.shrinkToFit_spec (h : rb.WellFormed) :
    rb.shrinkToFit.contents = rb.contents ∧ rb.shrinkToFit.WellFormed ∧
      rb.shrinkToFit.capacity ≤ rb.capacity ∧
      (rb.empty = true → rb.shrinkToFit.capacity = min rb.capacity 1024) ∧
      (¬ rb.empty = true →
        rb.shrinkToFit.capacity = min rb.capacity (max (2 * rb.readableBytes) 1024)) ∧
      (¬ rb.full = true → ¬ rb.shrinkToFit.full = true) := by
  have hfour := h.four_le
  have hlen := h.length_contents
  by_cases he : rb.empty = true
  · obtain ⟨buffer, hs, hbuffer⟩ := shrinkToFit_of_empty he
    have hz := empty_iff_readableBytes.mp he
    have hwf : (⟨buffer, 0, 0⟩ : RingBuffer).WellFormed :=
      wellFormed_of_front (by omega) (by omega)
    rw [hs]
    refine ⟨?_, hwf, ?_, fun _ => hbuffer, fun hne => absurd he hne, fun _ hfull => ?_⟩
    · rw [contents_of_front (Nat.zero_le _), List.take_zero,
        List.length_eq_zero_iff.mp (hlen.trans hz)]
    · show buffer.length ≤ rb.capacity
      omega
    · have hf : 0 + 1 = buffer.length := hwf.full_iff.mp hfull
      omega
  · have hpos : 0 < rb.readableBytes := Nat.pos_of_ne_zero fun hz => he (by simp [empty, hz])
    obtain ⟨hs, hle⟩ | ⟨buffer, hs, hbuffer, hlt, htake⟩ := h.shrinkToFit_of_not_empty he
    · rw [hs]
      exact ⟨rfl, h, Nat.le_refl _, fun he' => absurd he' he, fun _ => by omega, fun hf => hf⟩
    · have hwf : (⟨buffer, 0, rb.readableBytes⟩ : RingBuffer).WellFormed :=
        wellFormed_of_front (by omega) (by omega)
      rw [hs]
      refine ⟨?_, hwf, hlt.le, fun he' => absurd he' he, fun _ => ?_, fun _ hfull => ?_⟩
      · rw [contents_of_front (by omega), htake]
      · show buffer.length = _
        omega
      · have hf : rb.readableBytes - 0 + 1 = buffer.length := hwf.full_iff.mp hfull
        omega

/-- 2000 cells, of which the last ten and the first ten are in use. -/
def large : RingBuffer := ⟨List.replicate 2000 7, 1990, 10⟩

theorem large_wellFormed : large.WellFormed := by
  have hcap : large.capacity = 2000 := List.length_replicate
  exact ⟨by omega, by rw [hcap]; decide, by rw [hcap]; decide⟩

/-- They are moved into a vector of 1024 cells. -/
theorem shrinkToFit_spec_large :
    large.shrinkToFit.contents = large.contents ∧ large.shrinkToFit.WellFormed ∧
      large.shrinkToFit.capacity ≤ large.capacity ∧
      (large.empty = true → large.shrinkToFit.capacity = min large.capacity 1024) ∧
      (¬ large.empty = true →
        large.shrinkToFit.capacity = min large.capacity (max (2 * large.readableBytes) 1024)) ∧
      (¬ large.full = true → ¬ large.shrinkToFit.full = true) :=
  large_wellFormed.shrinkToFit_spec

/-- No call of `shrink_to_fit` leaves an empty buffer that has not been reset. -/
theorem WellFormed.settled_shrinkToFit (h : rb.WellFormed) (hs : rb.Settled) :
    rb.shrinkToFit.Settled := by
  by_cases he : rb.empty = true
  · obtain ⟨buffer, heq, -⟩ := shrinkToFit_of_empty he
    rw [heq]
    exact fun _ => rfl
  · obtain ⟨heq, -⟩ | ⟨buffer, heq, -⟩ := h.shrinkToFit_of_not_empty he
    · rwa [heq]
    · rw [heq]
      exact fun _ => rfl

end RingBuffer
