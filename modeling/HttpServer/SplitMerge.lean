import HttpServer.BufferOperator
import Mathlib.Algebra.GroupWithZero.Nat
import Mathlib.Tactic.Set

/-!
# Splitting and merging buffers

`Merge` copies views one after the other into a new buffer, and `Split` copies the bytes of a
buffer from a position on. Both get the new buffer from the factory, and the factory makes none of
size zero. So a split at the end of the buffer gives null where an empty buffer is meant, like a
merge of views that are all empty; a merge whose sizes add up to `2 ^ 64` or more, in `size_t`,
gets a block that is too small.

These are the only exceptions (`split_merge_exact`).
-/

namespace BufferOperator

/-! ## The source -/

/-- `CreateBuffer` of `DefaultBufferFactory`; `granted` is whether the pool gives the memory.
Nothing has been written to a new block. -/
def createBuffer (size : UInt64) (granted : Bool) : Option Buffer :=
  if size = 0 then none
  else if granted then some (.make (fun _ => none) size)
  else none

/-- The loop of `Merge` that copies the views, from `ptr` on. -/
def copyViews (buf : Buffer) (ptr : ℕ) : List BufferView → Buffer
  | [] => buf
  | view :: views => copyViews (buf.store ptr view.data) (ptr + view.size.toNat) views

/-- `Merge`. -/
def merge (buffers : List BufferView) (granted : Bool) : Except StdException (Option Buffer) :=
  let total := buffers.foldl (fun total view => total + view.size) 0
  match createBuffer total granted with
  | none => .ok none
  | some buf => ((copyViews buf 0 buffers).resize total).map some

/-- `Split`. -/
def split (src : Buffer) (pos : UInt64) (granted : Bool) : Except StdException (Option Buffer) :=
  if src.size < pos then .ok none
  else
    let newSize := src.size - pos
    match createBuffer newSize granted with
    | none => .ok none
    | some newBuf =>
      let newBuf := newBuf.store 0 (src.memory.read pos.toNat newSize.toNat)
      (newBuf.resize newSize).map some

/-! ## What they are to do -/

/-- `Split` gives a buffer if the position is in the buffer or at its end, and that holds the valid
bytes from there on. -/
def SplitExact (src : Buffer) (pos : UInt64) : Prop :=
  ∃ r, split src pos true = .ok r ∧ (r.isSome ↔ pos ≤ src.size) ∧
    ∀ b, r = some b → b.valid = src.valid.drop pos.toNat

/-- `Merge` gives a buffer that holds what the views hold, one after the other. -/
def MergeExact (buffers : List BufferView) : Prop :=
  ∃ b, merge buffers true = .ok (some b) ∧ b.valid = (buffers.map (·.data)).flatten

/-- The view of the first valid bytes, up to a position. -/
def firstBytes (src : Buffer) (pos : UInt64) : BufferView where
  data := src.valid.take pos.toNat
  size := if pos ≤ src.size then pos else src.size
  length_eq := by
    rw [List.length_take, length_valid]
    split
    · exact Nat.min_eq_left (UInt64.le_iff_toNat_le.mp ‹_›)
    · exact Nat.min_eq_right (UInt64.le_iff_toNat_le.mp (UInt64.le_of_lt (UInt64.not_le.mp ‹_›)))

/-- To merge the first bytes with what a split gives is to get the valid bytes back. -/
def RoundTrips (src : Buffer) (pos : UInt64) : Prop :=
  ∃ back b, split src pos true = .ok (some back) ∧
    merge [firstBytes src pos, back.view] true = .ok (some b) ∧ b.valid = src.valid

/-- How many bytes the views have together. -/
def totalBytes (buffers : List BufferView) : ℕ := (buffers.map (·.data.length)).sum

/-! ## Merging -/

@[simp] theorem totalBytes_cons (view : BufferView) (views : List BufferView) :
    totalBytes (view :: views) = view.data.length + totalBytes views := rfl

/-- The sum of the sizes, in `size_t`. -/
theorem toNat_total (buffers : List BufferView) (start : UInt64) :
    (buffers.foldl (fun total view => total + view.size) start).toNat
      = (start.toNat + totalBytes buffers) % 2 ^ 64 := by
  induction buffers generalizing start with
  | nil => exact (Nat.mod_eq_of_lt start.toNat_lt).symm
  | cons view views ih =>
    rw [List.foldl_cons, ih, UInt64.toNat_add, totalBytes_cons, view.length_eq, Nat.mod_add_mod,
      Nat.add_assoc]

@[simp] theorem copyViews_capacity (buf : Buffer) (ptr : ℕ) (views : List BufferView) :
    (copyViews buf ptr views).capacity = buf.capacity := by
  induction views generalizing buf ptr with
  | nil => rfl
  | cons view views ih => exact ih _ _

/-- What has been copied is not touched again. -/
theorem read_copyViews_before {buf : Buffer} {offset n ptr : ℕ} (h : offset + n ≤ ptr)
    (views : List BufferView) :
    (copyViews buf ptr views).memory.read offset n = buf.memory.read offset n := by
  induction views generalizing buf ptr with
  | nil => rfl
  | cons view views ih =>
    rw [copyViews, ih (by omega)]
    exact Memory.read_write_before _ h _

/-- **The loop puts the views one behind the other.** -/
theorem read_copyViews (buf : Buffer) (ptr : ℕ) (views : List BufferView) :
    (copyViews buf ptr views).memory.read ptr (totalBytes views)
      = (views.map (·.data)).flatten := by
  induction views generalizing buf ptr with
  | nil => rfl
  | cons view views ih =>
    rw [copyViews, totalBytes_cons, Memory.read_add,
      read_copyViews_before (Nat.le_of_eq (congrArg _ view.length_eq)), List.map_cons,
      List.flatten_cons]
    congr 1
    · exact Memory.read_write_self _ _ _
    · rw [view.length_eq, ih]

theorem length_flatten (buffers : List BufferView) :
    (buffers.map (·.data)).flatten.length = totalBytes buffers := by
  rw [List.length_flatten, List.map_map]
  rfl

/-- A merge with something to allocate. -/
theorem merge_of_ne {buffers : List BufferView}
    (hne : buffers.foldl (fun total view => total + view.size) 0 ≠ 0) :
    ∃ b, merge buffers true = .ok (some b)
      ∧ b.size.toNat = totalBytes buffers % 2 ^ 64
      ∧ (totalBytes buffers < 2 ^ 64 → b.valid = (buffers.map (·.data)).flatten) := by
  have htotal := toNat_total buffers 0
  rw [UInt64.toNat_zero, Nat.zero_add] at htotal
  set total := buffers.foldl (fun total view => total + view.size) 0 with ht
  have hle : total ≤ (copyViews (.make (fun _ => none) total) 0 buffers).capacity := by
    rw [copyViews_capacity]
    exact UInt64.le_refl total
  refine ⟨(copyViews (.make (fun _ => none) total) 0 buffers).resized total hle, ?_, htotal,
    fun hlt => ?_⟩
  · simp only [merge, ← ht, createBuffer, if_neg hne, if_true, resize_of_le hle, Except.map]
  · rw [Nat.mod_eq_of_lt hlt] at htotal
    show Memory.read _ 0 total.toNat = _
    rw [htotal]
    exact read_copyViews _ 0 buffers

/-- **A merge is exact** exactly if there are bytes to merge, and fewer than `2 ^ 64`. -/
theorem mergeExact_iff (buffers : List BufferView) :
    MergeExact buffers ↔ 0 < totalBytes buffers ∧ totalBytes buffers < 2 ^ 64 := by
  have htotal := toNat_total buffers 0
  rw [UInt64.toNat_zero, Nat.zero_add] at htotal
  by_cases hz : buffers.foldl (fun total view => total + view.size) 0 = 0
  · have hnull : merge buffers true = .ok none := by
      simp only [merge, createBuffer, hz, if_true]
    rw [hz, UInt64.toNat_zero] at htotal
    constructor
    · rintro ⟨b, hb, -⟩
      rw [hnull] at hb
      cases hb
    · rintro ⟨hpos, hlt⟩
      rw [Nat.mod_eq_of_lt hlt] at htotal
      omega
  · obtain ⟨b, hb, hsize, hvalid⟩ := merge_of_ne hz
    have hlen := length_valid b
    have hpos : b.size.toNat ≠ 0 := by
      rw [hsize, ← htotal]
      exact fun h => hz (UInt64.toNat_inj.mp h)
    constructor
    · rintro ⟨b', hb', hvalid'⟩
      obtain rfl : b = b' := by
        rw [hb] at hb'
        cases hb'
        rfl
      rw [hvalid', length_flatten] at hlen
      omega
    · rintro ⟨-, hlt⟩
      exact ⟨b, hb, hvalid hlt⟩

/-! ## Splitting -/

/-- **A split in front of the end** gives the valid bytes from there on. -/
theorem split_of_lt {src : Buffer} {pos : UInt64} (h : pos < src.size) :
    ∃ b, split src pos true = .ok (some b) ∧ b.valid = src.valid.drop pos.toNat := by
  have hlt := UInt64.lt_iff_toNat_lt.mp h
  have hle := UInt64.le_of_lt h
  have hsub : (src.size - pos).toNat = src.size.toNat - pos.toNat :=
    UInt64.toNat_sub_of_le _ _ hle
  have hne : src.size - pos ≠ 0 := by
    intro hz
    rw [hz, UInt64.toNat_zero] at hsub
    omega
  have hcopied : ((src.memory.read pos.toNat (src.size - pos).toNat)).length
      = (src.size - pos).toNat := Memory.length_read ..
  set newBuf := (Buffer.make (fun _ => none) (src.size - pos)).store 0
    (src.memory.read pos.toNat (src.size - pos).toNat) with hbuf
  have hfit : src.size - pos ≤ newBuf.capacity := UInt64.le_refl _
  refine ⟨newBuf.resized (src.size - pos) hfit, ?_, ?_⟩
  · simp only [split, if_neg (UInt64.not_lt.mpr hle), createBuffer, if_neg hne, if_true, ← hbuf,
      resize_of_le hfit, Except.map]
  · have hself : newBuf.memory.read 0 (src.size - pos).toNat
        = src.memory.read pos.toNat (src.size - pos).toNat := by
      have := Memory.read_write_self (fun _ => none) 0
        (src.memory.read pos.toNat (src.size - pos).toNat)
      rwa [hcopied] at this
    have hsize : src.size.toNat = pos.toNat + (src.size - pos).toNat := by omega
    show newBuf.memory.read 0 (src.size - pos).toNat = _
    rw [hself, Buffer.valid, hsize, Memory.read_add, List.drop_left' (Memory.length_read _ _ _),
      Nat.zero_add]

/-- **At the end, and behind it, a split gives null.** -/
theorem split_of_le {src : Buffer} {pos : UInt64} (h : src.size ≤ pos) :
    split src pos true = .ok none := by
  unfold split
  split
  · rfl
  · rename_i hlt
    obtain rfl : pos = src.size := UInt64.le_antisymm (UInt64.not_lt.mp hlt) h
    simp only [UInt64.sub_self, createBuffer, if_true]

/-- **A split is exact** exactly if it is not at the end. -/
theorem splitExact_iff (src : Buffer) (pos : UInt64) : SplitExact src pos ↔ pos ≠ src.size := by
  by_cases hlt : pos < src.size
  · obtain ⟨b, hb, hvalid⟩ := split_of_lt hlt
    refine ⟨fun _ => UInt64.ne_of_lt hlt, fun _ => ⟨some b, hb, ?_, ?_⟩⟩
    · exact ⟨fun _ => UInt64.le_of_lt hlt, fun _ => rfl⟩
    · rintro b' hb'
      cases hb'
      exact hvalid
  · have hnull := split_of_le (UInt64.not_lt.mp hlt)
    constructor
    · rintro ⟨r, hr, hiff, -⟩ rfl
      rw [hnull] at hr
      cases hr
      cases hiff.mpr (UInt64.le_refl _)
    · intro hne
      refine ⟨none, hnull, ⟨fun h => (by cases h), fun hle => ?_⟩, fun b hb => by cases hb⟩
      exact absurd (UInt64.lt_of_le_of_ne hle hne) hlt

/-! ## Both -/

/-- **Merging the two parts of a split gives the buffer back** exactly if the split is in front of
the end. -/
theorem roundTrips_iff (src : Buffer) (pos : UInt64) : RoundTrips src pos ↔ pos < src.size := by
  constructor
  · rintro ⟨back, b, hsplit, -⟩
    refine UInt64.not_le.mp fun hle => ?_
    rw [split_of_le hle] at hsplit
    cases hsplit
  · intro hlt
    obtain ⟨back, hsplit, hvalid⟩ := split_of_lt hlt
    have hsize := src.size.toNat_lt
    have hlt' := UInt64.lt_iff_toNat_lt.mp hlt
    have hflat : ([firstBytes src pos, back.view].map (·.data)).flatten = src.valid := by
      show src.valid.take pos.toNat ++ (back.valid ++ []) = _
      rw [List.append_nil, hvalid, List.take_append_drop]
    have hbytes : totalBytes [firstBytes src pos, back.view] = src.size.toNat := by
      rw [← length_flatten, hflat, length_valid]
    obtain ⟨b, hmerge, hb⟩ := (mergeExact_iff [firstBytes src pos, back.view]).mpr
      ⟨by omega, by omega⟩
    exact ⟨back, b, hsplit, hmerge, hb.trans hflat⟩

/-- **`Split` and `Merge` are inverse where no empty buffer is needed.** -/
theorem split_merge_exact (src : Buffer) (pos : UInt64) (buffers : List BufferView) :
    (SplitExact src pos ↔ pos ≠ src.size) ∧
      (MergeExact buffers ↔ 0 < totalBytes buffers ∧ totalBytes buffers < 2 ^ 64) ∧
      (RoundTrips src pos ↔ pos < src.size) :=
  ⟨splitExact_iff src pos, mergeExact_iff buffers, roundTrips_iff src pos⟩

/-- A buffer with ten valid bytes, split at its end, and a merge of no views. -/
theorem atTheEnd_null :
    split ⟨fun _ => some 65, 10, 10, by decide⟩ 10 true = .ok none ∧ merge [] true = .ok none ∧
      ¬ SplitExact ⟨fun _ => some 65, 10, 10, by decide⟩ 10 ∧ ¬ MergeExact [] ∧
      ¬ RoundTrips ⟨fun _ => some 65, 10, 10, by decide⟩ 10 :=
  ⟨rfl, rfl, fun h => (splitExact_iff _ _).mp h rfl,
    fun h => absurd ((mergeExact_iff _).mp h).1 (by decide),
    fun h => absurd ((roundTrips_iff _ _).mp h) (by decide)⟩

end BufferOperator
