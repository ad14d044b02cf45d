import HttpServer.Cpp
import HttpServer.Machine
import Mathlib.Algebra.BigOperators.Group.List.Basic
import Mathlib.Data.List.Induction
import Mathlib.Data.UInt

/-!
# The memory pool

`DefaultMemoryPool` of `core/Buffer/memory_pool.cpp`. A block is obtained from
`operator new`, with room for a header and for the alignment, and counted against the limit
of the pool. A block that is deallocated goes to a free list.

Nothing is ever taken from the free list, and nothing is ever subtracted from the count. So
the limit is not on the blocks in use but on all that have been obtained since the pool was
made, and a pool of any size is used up at last: `requests_granted_iff` says which requests
are granted, and `round_trips_refused` that a caller who returns every block before it asks
for the next is refused all the same.
-/

/-! ## The source -/

/-- `BlockHeader`. The alignment that was asked for is kept for the account of what is in
use; the source does not store it. -/
structure BlockHeader where
  size : UInt64
  inUse : Bool
  alignment : UInt64
  deriving DecidableEq

/-- `sizeof(BlockHeader)`. -/
def sizeofBlockHeader : UInt64 := 24

/-- `alignof(std::max_align_t)`. -/
def alignofMaxAlign : UInt64 := 16

/-- `DefaultMemoryPool`, with the blocks that `operator new` has returned: their addresses
and sizes. A pointer is its address. -/
structure DefaultMemoryPool where
  maxPoolSize : UInt64 := 1024 * 1024 * 100
  freeList : List BlockHeader := []
  allocations : List (UInt64 × BlockHeader) := []
  totalPoolBytes : UInt64 := 0
  totalAllocatedBytes : UInt64 := 0
  usedBytes : UInt64 := 0
  allocationCount : UInt64 := 0
  deallocationCount : UInt64 := 0
  obtained : List (UInt64 × UInt64) := []
  deriving DecidableEq

namespace DefaultMemoryPool

variable (p : DefaultMemoryPool)

/-- What a request takes from `operator new`, computed in `size_t`. -/
def totalNeeded (size alignment : UInt64) : UInt64 := size + alignment + sizeofBlockHeader

/-- The pointer that is returned, aligned behind the header. -/
def alignedPointer (raw alignment : UInt64) : UInt64 :=
  (raw + sizeofBlockHeader + alignment - 1) &&& ~~~(alignment - 1)

/-- The limit on the pool. -/
def ExceedsLimit (size alignment : UInt64) : Prop :=
  p.maxPoolSize < p.totalPoolBytes + totalNeeded size alignment ∧ 0 < p.maxPoolSize

instance (size alignment : UInt64) : Decidable (p.ExceedsLimit size alignment) :=
  inferInstanceAs (Decidable (_ ∧ _))

/-- `AllocateBytesAligned`: the pointer, which is null if the request is refused. `raw` is
what `operator new` returns if it is called. -/
def allocateBytesAligned (size alignment raw : UInt64) : UInt64 × DefaultMemoryPool :=
  if size = 0 then (0, p)
  else if p.ExceedsLimit size alignment then (0, p)
  else
    let aligned := alignedPointer raw alignment
    let header : BlockHeader := { size, inUse := true, alignment }
    (aligned, { p with
      allocations := (aligned, header) :: p.allocations.filter fun e => e.1 ≠ aligned
      totalPoolBytes := p.totalPoolBytes + totalNeeded size alignment
      totalAllocatedBytes := p.totalAllocatedBytes + size
      usedBytes := p.usedBytes + size
      allocationCount := p.allocationCount + 1
      obtained := (raw, totalNeeded size alignment) :: p.obtained })

/-- `AllocateBytes`. -/
def allocateBytes (size raw : UInt64) : UInt64 × DefaultMemoryPool :=
  p.allocateBytesAligned size alignofMaxAlign raw

/-- `DeallocateBytes`. -/
def deallocateBytes (ptr : UInt64) : DefaultMemoryPool :=
  if ptr = 0 then p
  else
    match p.allocations.find? fun e => e.1 = ptr with
    | none => p
    | some (_, header) =>
      { p with
        freeList := { header with inUse := false } :: p.freeList
        allocations := p.allocations.filter fun e => e.1 ≠ ptr
        usedBytes := p.usedBytes - header.size
        deallocationCount := p.deallocationCount + 1 }

/-! ## Runs -/

/-- What `operator new` may return for a size: memory that does not overlap a block it has
returned before. The pool gives none of them back. -/
def MayReturn (size raw : UInt64) : Prop :=
  0 < raw ∧ raw.toNat + size.toNat ≤ 2 ^ 64
    ∧ ∀ b ∈ p.obtained, b.1.toNat + b.2.toNat ≤ raw.toNat ∨ raw.toNat + size.toNat ≤ b.1.toNat

instance (size raw : UInt64) : Decidable (p.MayReturn size raw) :=
  -- through the list of the blocks, not through all the numbers
  @instDecidableAnd _ _ _ (@instDecidableAnd _ _ _ (List.decidableBAll _ _))

/-- A request the source has a meaning for: there is no alignment of zero, and if
`operator new` is called it returns `raw`. -/
def Admissible (size alignment raw : UInt64) : Prop :=
  alignment ≠ 0 ∧ (size = 0 ∨ p.ExceedsLimit size alignment
    ∨ p.MayReturn (totalNeeded size alignment) raw)

instance (size alignment raw : UInt64) : Decidable (p.Admissible size alignment raw) :=
  inferInstanceAs (Decidable (_ ∧ _))

end DefaultMemoryPool

/-- The calls of a pool. -/
inductive PoolAction
  | allocateBytes (size raw : UInt64)
  | allocateBytesAligned (size alignment raw : UInt64)
  | deallocateBytes (ptr : UInt64)
  deriving DecidableEq

/-- The size and the alignment that are asked for. -/
def PoolAction.request : PoolAction → Option (UInt64 × UInt64)
  | .allocateBytes size _ => some (size, alignofMaxAlign)
  | .allocateBytesAligned size alignment _ => some (size, alignment)
  | .deallocateBytes _ => none

/-- The pool as a machine; the result is the pointer that is returned. -/
def memoryPool : Machine DefaultMemoryPool PoolAction UInt64 where
  step p a :=
    match a with
    | .allocateBytes size raw =>
      if p.Admissible size alignofMaxAlign raw then
        let r := p.allocateBytes size raw
        some (r.2, r.1)
      else none
    | .allocateBytesAligned size alignment raw =>
      if p.Admissible size alignment raw then
        let r := p.allocateBytesAligned size alignment raw
        some (r.2, r.1)
      else none
    | .deallocateBytes ptr => some (p.deallocateBytes ptr, 0)

namespace DefaultMemoryPool

variable (p : DefaultMemoryPool)

/-- The footprint of a block. -/
def footprint (size alignment : UInt64) : ℕ := size.toNat + alignment.toNat + 24

/-- **What the blocks in use take together.** -/
def liveFootprint : ℕ := (p.allocations.map fun e => footprint e.2.size e.2.alignment).sum

/-- A non-empty request that fits beside the blocks in use. -/
def Fits (size alignment : UInt64) : Prop :=
  size ≠ 0 ∧ p.liveFootprint + footprint size alignment ≤ p.maxPoolSize.toNat

/-- **A request that fits is granted.** -/
def Granted (a : PoolAction) : Prop :=
  ∀ size alignment, a.request = some (size, alignment) → p.Fits size alignment →
    ∀ r, memoryPool.step p a = some r → r.2 ≠ 0

/-- What the blocks that have been obtained so far take together, in `size_t`. -/
def obtainedBytes : UInt64 := (p.obtained.map Prod.snd).sum

/-- **There is room for a request beside all blocks obtained so far**, returned or not. -/
def RoomBesideAll (a : PoolAction) : Prop :=
  ∀ size alignment, a.request = some (size, alignment) → p.Fits size alignment →
    p.obtainedBytes + totalNeeded size alignment ≤ p.maxPoolSize

/-! ## One call -/

/-- A sum that stays within `size_t`. -/
theorem toNat_add_of_lt {a b : UInt64} (h : a.toNat + b.toNat < 2 ^ 64) :
    (a + b).toNat = a.toNat + b.toNat := by
  rw [UInt64.toNat_add, Nat.mod_eq_of_lt h]

theorem toNat_totalNeeded {size alignment : UInt64} (h : footprint size alignment < 2 ^ 64) :
    (totalNeeded size alignment).toNat = footprint size alignment := by
  unfold footprint at h ⊢
  rw [totalNeeded, UInt64.toNat_add, UInt64.toNat_add]
  show ((size.toNat + alignment.toNat) % 2 ^ 64 + 24) % 2 ^ 64 = _
  omega

/-- A number is what a mask keeps of it, and what it drops. -/
theorem toNat_and_add_and_not (x m : UInt64) :
    (x &&& m).toNat + (x &&& ~~~m).toNat = x.toNat := by
  have hsum : (x &&& m) + (x &&& ~~~m) = x := by
    apply UInt64.toBitVec_inj.mp
    show (x.toBitVec &&& m.toBitVec) + (x.toBitVec &&& ~~~m.toBitVec) = x.toBitVec
    rw [BitVec.add_eq_or_of_and_eq_zero, ← BitVec.and_or_distrib_left, BitVec.or_not_self,
      BitVec.and_allOnes]
    ext i hi
    simp only [BitVec.getElem_and, BitVec.getElem_not, BitVec.getElem_zero]
    cases x.toBitVec[i] <;> cases m.toBitVec[i] <;> rfl
  have hmod := congrArg UInt64.toNat hsum
  rw [UInt64.toNat_add] at hmod
  have hkept : (x &&& m).toNat ≤ x.toNat := UInt64.le_iff_toNat_le.mp UInt64.and_le_left
  have hdropped := (x &&& ~~~m).toNat_lt
  omega

/-- Dropping the low bits takes away no more than they can be. -/
theorem le_and_not_add (x m : UInt64) : x.toNat ≤ (x &&& ~~~m).toNat + m.toNat := by
  have hsum := toNat_and_add_and_not x m
  have hlow : (x &&& m).toNat ≤ m.toNat := UInt64.le_iff_toNat_le.mp UInt64.and_le_right
  omega

/-- **A pointer is within its block**, behind the header. -/
theorem alignedPointer_bounds {size alignment raw : UInt64} (hal : alignment ≠ 0)
    (hroom : raw.toNat + footprint size alignment ≤ 2 ^ 64) (hsize : size ≠ 0) :
    raw.toNat + 24 ≤ (alignedPointer raw alignment).toNat
      ∧ (alignedPointer raw alignment).toNat < raw.toNat + footprint size alignment := by
  have hal' : alignment.toNat ≠ 0 := fun h0 => hal (UInt64.toNat_inj.mp h0)
  have hsize' : size.toNat ≠ 0 := fun h0 => hsize (UInt64.toNat_inj.mp h0)
  unfold footprint at hroom ⊢
  have hmask : (alignment - 1).toNat = alignment.toNat - 1 :=
    UInt64.toNat_sub_of_le _ _ (UInt64.le_iff_toNat_le.mpr (Nat.pos_of_ne_zero hal'))
  have hsum : (raw + sizeofBlockHeader + alignment).toNat = raw.toNat + 24 + alignment.toNat := by
    rw [UInt64.toNat_add, UInt64.toNat_add]
    show ((raw.toNat + 24) % 2 ^ 64 + alignment.toNat) % 2 ^ 64 = _
    omega
  have hptr : (raw + sizeofBlockHeader + alignment - 1).toNat
      = raw.toNat + 24 + alignment.toNat - 1 := by
    rw [UInt64.toNat_sub_of_le _ _ (UInt64.le_iff_toNat_le.mpr (by
      rw [hsum]
      show 1 ≤ _
      omega)), hsum]
    rfl
  have hlow := le_and_not_add (raw + sizeofBlockHeader + alignment - 1) (alignment - 1)
  have hhigh : (alignedPointer raw alignment).toNat
      ≤ (raw + sizeofBlockHeader + alignment - 1).toNat :=
    UInt64.le_iff_toNat_le.mp UInt64.and_le_left
  rw [hmask, hptr] at hlow
  rw [hptr] at hhigh
  have hpointer : (alignedPointer raw alignment).toNat
      = ((raw + sizeofBlockHeader + alignment - 1) &&& ~~~(alignment - 1)).toNat := rfl
  omega

/-- The pointer into a block of its own is not null. -/
theorem alignedPointer_ne_zero {size alignment raw : UInt64} (hal : alignment ≠ 0)
    (hsize : size ≠ 0) (hfoot : footprint size alignment < 2 ^ 64)
    (hroom : raw.toNat + (totalNeeded size alignment).toNat ≤ 2 ^ 64) :
    alignedPointer raw alignment ≠ 0 := by
  intro h
  rw [toNat_totalNeeded hfoot] at hroom
  have hbehind := (alignedPointer_bounds hal hroom hsize).1
  rw [h] at hbehind
  exact absurd hbehind (by rw [UInt64.toNat_zero]; omega)

/-- The count is that of all blocks obtained so far. -/
def Counted : Prop := p.totalPoolBytes = p.obtainedBytes

variable {p}

theorem Counted.allocateBytesAligned (h : p.Counted) (size alignment raw : UInt64) :
    (p.allocateBytesAligned size alignment raw).2.Counted := by
  unfold DefaultMemoryPool.allocateBytesAligned
  split
  · exact h
  · split
    · exact h
    · show p.totalPoolBytes + _ = _
      rw [h, obtainedBytes, obtainedBytes, List.map_cons, List.sum_cons, UInt64.add_comm]

/-- Every call keeps the count. -/
theorem Counted.step (h : p.Counted) {a : PoolAction} {r : DefaultMemoryPool × UInt64}
    (hr : memoryPool.step p a = some r) : r.1.Counted := by
  cases a with
  | allocateBytes size raw =>
    obtain ⟨-, hr'⟩ := Option.ite_none_right_eq_some.mp hr
    cases hr'
    exact h.allocateBytesAligned size alignofMaxAlign raw
  | allocateBytesAligned size alignment raw =>
    obtain ⟨-, hr'⟩ := Option.ite_none_right_eq_some.mp hr
    cases hr'
    exact h.allocateBytesAligned size alignment raw
  | deallocateBytes ptr =>
    cases hr
    show (p.deallocateBytes ptr).Counted
    unfold deallocateBytes
    split
    · exact h
    · split <;> exact h

/-- **One request that fits**: it is refused exactly if there is no room beside all blocks
obtained so far. -/
theorem Counted.allocateBytesAligned_ne_zero_iff (h : p.Counted) {size alignment raw : UInt64}
    (hfits : p.Fits size alignment) (hadm : p.Admissible size alignment raw) :
    (p.allocateBytesAligned size alignment raw).1 ≠ 0
      ↔ p.obtainedBytes + totalNeeded size alignment ≤ p.maxPoolSize := by
  obtain ⟨hsize, hle⟩ := hfits
  obtain ⟨hal, hraw⟩ := hadm
  have hmax : p.maxPoolSize.toNat < 2 ^ 64 := p.maxPoolSize.toNat_lt
  have hfoot : footprint size alignment < 2 ^ 64 := by omega
  have hpos : 0 < p.maxPoolSize := by
    rw [UInt64.lt_iff_toNat_lt]
    show 0 < p.maxPoolSize.toNat
    unfold footprint at hle
    omega
  have hlimit : p.ExceedsLimit size alignment
      ↔ ¬ p.obtainedBytes + totalNeeded size alignment ≤ p.maxPoolSize := by
    rw [ExceedsLimit, h, UInt64.not_le]
    exact and_iff_left hpos
  unfold DefaultMemoryPool.allocateBytesAligned
  rw [if_neg hsize]
  split
  · rename_i hexceeds
    exact iff_of_false (fun hne => hne rfl) (hlimit.mp hexceeds)
  · rename_i hroom
    rcases hraw with h0 | hexceeds | hreturn
    · exact absurd h0 hsize
    · exact absurd hexceeds hroom
    · refine iff_of_true ?_ (not_not.mp fun hno => hroom (hlimit.mpr hno))
      exact alignedPointer_ne_zero hal hsize hfoot hreturn.2.1

/-- The same of a call. -/
theorem Counted.granted_iff (h : p.Counted) {a : PoolAction} {r : DefaultMemoryPool × UInt64}
    (hr : memoryPool.step p a = some r) : p.Granted a ↔ p.RoomBesideAll a := by
  unfold Granted RoomBesideAll
  refine forall_congr' fun size => forall_congr' fun alignment => imp_congr_right fun hreq =>
    imp_congr_right fun hfits => ?_
  have hresult : (∀ r', memoryPool.step p a = some r' → r'.2 ≠ 0) ↔ r.2 ≠ 0 := by
    rw [hr]
    simp
  rw [hresult]
  cases a with
  | allocateBytes size' raw =>
    cases hreq
    obtain ⟨hadm, hr'⟩ := Option.ite_none_right_eq_some.mp hr
    cases hr'
    exact h.allocateBytesAligned_ne_zero_iff hfits hadm
  | allocateBytesAligned size' alignment' raw =>
    cases hreq
    obtain ⟨hadm, hr'⟩ := Option.ite_none_right_eq_some.mp hr
    cases hr'
    exact h.allocateBytesAligned_ne_zero_iff hfits hadm
  | deallocateBytes ptr => cases hreq

/-! ## Runs -/

/-- **Which requests are granted.** In every run of a new pool with any limit, each non-empty
request that fits beside the blocks in use is granted a pointer, exactly if each of them has
room beside all the blocks that were obtained before it, whether these are in use or not. -/
theorem requests_granted_iff (maxPoolSize : UInt64) (actions : List PoolAction) :
    memoryPool.Along (fun p a => p.Granted a) { maxPoolSize } actions
      ↔ memoryPool.Along (fun p a => p.RoomBesideAll a) { maxPoolSize } actions :=
  Machine.along_iff_along (I := Counted) (fun _ _ _ h hr => h.step hr)
    (fun _ _ _ h hr => h.granted_iff hr) rfl

/-- What two round trips of ten bytes leave of a pool for a hundred. -/
def afterTwoRoundTrips : DefaultMemoryPool where
  maxPoolSize := 100
  freeList := [{ size := 10, inUse := false, alignment := 16 },
    { size := 10, inUse := false, alignment := 16 }]
  totalPoolBytes := 100
  totalAllocatedBytes := 20
  allocationCount := 2
  deallocationCount := 2
  obtained := [(0x2000, 50), (0x1000, 50)]

/-- A pool for a hundred bytes refuses the third request for ten bytes, although the first
two blocks have been returned. -/
theorem third_request_refused :
    ¬ memoryPool.Along (fun p a => p.Granted a) { maxPoolSize := 100 }
      [.allocateBytes 10 0x1000, .deallocateBytes 0x1020, .allocateBytes 10 0x2000,
        .deallocateBytes 0x2020, .allocateBytes 10 0x3000] := by
  intro h
  have hrun : memoryPool.run { maxPoolSize := 100 } [.allocateBytes 10 0x1000,
      .deallocateBytes 0x1020, .allocateBytes 10 0x2000, .deallocateBytes 0x2020]
      = some (afterTwoRoundTrips, [0x1020, 0, 0x2020, 0]) := by
    decide +kernel
  have hrefused : memoryPool.step afterTwoRoundTrips (.allocateBytes 10 0x3000)
      = some (afterTwoRoundTrips, 0) := by
    decide +kernel
  have hlast : memoryPool.Along (fun p a => p.Granted a) afterTwoRoundTrips
      [.allocateBytes 10 0x3000] :=
    Machine.Along.of_append h hrun
  obtain ⟨hgranted, -⟩ := hlast _ hrefused
  exact hgranted 10 16 rfl (by unfold Fits; decide +kernel) _ hrefused rfl

/-! ## Returning every block -/

/-- A block is asked for and returned. -/
def roundTrip (size alignment : UInt64) (p : DefaultMemoryPool) (raw : UInt64) :
    DefaultMemoryPool :=
  let r := p.allocateBytesAligned size alignment raw
  r.2.deallocateBytes r.1

/-- After so many round trips: nothing is in use, and either all of them have been counted or
no other block is granted. -/
structure Spent (maxPoolSize size alignment : UInt64) (n : ℕ) (p : DefaultMemoryPool) : Prop where
  max_eq : p.maxPoolSize = maxPoolSize
  idle : p.allocations = []
  count : p.totalPoolBytes.toNat = n * footprint size alignment
    ∨ maxPoolSize.toNat < p.totalPoolBytes.toNat + footprint size alignment
  le_max : p.totalPoolBytes ≤ maxPoolSize

variable {maxPoolSize size alignment : UInt64}

/-- The limit, where no sum leaves `size_t`. -/
theorem Spent.exceedsLimit_iff {n : ℕ} (h : Spent maxPoolSize size alignment n p)
    (hpos : 0 < maxPoolSize)
    (hsmall : maxPoolSize.toNat + footprint size alignment < 2 ^ 64) :
    p.ExceedsLimit size alignment
      ↔ maxPoolSize.toNat < p.totalPoolBytes.toNat + footprint size alignment := by
  have hle := UInt64.le_iff_toNat_le.mp h.le_max
  have hsum : (p.totalPoolBytes + totalNeeded size alignment).toNat
      = p.totalPoolBytes.toNat + footprint size alignment := by
    rw [UInt64.toNat_add, toNat_totalNeeded (by omega)]
    exact Nat.mod_eq_of_lt (by omega)
  rw [ExceedsLimit, h.max_eq, UInt64.lt_iff_toNat_lt, hsum]
  exact and_iff_left hpos

/-- One more round trip. -/
theorem Spent.roundTrip {n : ℕ} (h : Spent maxPoolSize size alignment n p) (hsize : size ≠ 0)
    (hal : alignment ≠ 0) (hpos : 0 < maxPoolSize)
    (hsmall : maxPoolSize.toNat + footprint size alignment < 2 ^ 64) {raw : UInt64}
    (hroom : raw.toNat + footprint size alignment ≤ 2 ^ 64) :
    Spent maxPoolSize size alignment (n + 1) (roundTrip size alignment p raw) := by
  have hlimit := h.exceedsLimit_iff hpos hsmall
  unfold DefaultMemoryPool.roundTrip allocateBytesAligned
  rw [if_neg hsize]
  by_cases hexceeds : p.ExceedsLimit size alignment
  · rw [if_pos hexceeds]
    exact ⟨h.max_eq, h.idle, Or.inr (hlimit.mp hexceeds), h.le_max⟩
  · have hfree := Nat.not_lt.mp fun hlt => hexceeds (hlimit.mpr hlt)
    have hcount := h.count.resolve_right (Nat.not_lt.mpr hfree)
    have hfoot : footprint size alignment < 2 ^ 64 := by omega
    have hptr : alignedPointer raw alignment ≠ 0 :=
      alignedPointer_ne_zero hal hsize hfoot (by rwa [toNat_totalNeeded hfoot])
    have hsum : (p.totalPoolBytes + totalNeeded size alignment).toNat
        = p.totalPoolBytes.toNat + footprint size alignment := by
      rw [UInt64.toNat_add, toNat_totalNeeded (by omega)]
      exact Nat.mod_eq_of_lt (by omega)
    have hsum' : (p.totalPoolBytes + totalNeeded size alignment).toNat
        = (n + 1) * footprint size alignment := by rw [hsum, hcount, Nat.succ_mul]
    have hle : p.totalPoolBytes + totalNeeded size alignment ≤ maxPoolSize := by
      rw [UInt64.le_iff_toNat_le, hsum]
      exact hfree
    rw [if_neg hexceeds]
    unfold deallocateBytes
    dsimp only
    rw [h.idle, if_neg hptr]
    simp only [List.filter_nil, List.find?_cons, decide_true]
    exact ⟨h.max_eq, by simp, Or.inl hsum', hle⟩

/-- **A pool is used up by blocks that are all returned.** Whoever asks for a block, returns
it and asks again is refused as soon as the rounds so far, with the new one, come to more than
the limit, although nothing is in use. -/
theorem round_trips_refused (hsize : size ≠ 0) (hal : alignment ≠ 0) (hpos : 0 < maxPoolSize)
    (hsmall : maxPoolSize.toNat + footprint size alignment < 2 ^ 64) (raws : List UInt64)
    (hraws : ∀ raw ∈ raws, 0 < raw ∧ raw.toNat + footprint size alignment ≤ 2 ^ 64)
    (hlong : maxPoolSize.toNat < (raws.length + 1) * footprint size alignment) (raw : UInt64) :
    (raws.foldl (roundTrip size alignment) { maxPoolSize }).allocations = []
      ∧ ((raws.foldl (roundTrip size alignment) { maxPoolSize }).allocateBytesAligned
        size alignment raw).1 = 0 := by
  have hspent : Spent maxPoolSize size alignment raws.length
      (raws.foldl (roundTrip size alignment) { maxPoolSize }) := by
    clear hlong
    induction raws using List.reverseRecOn with
    | nil =>
      exact ⟨rfl, rfl, Or.inl (Nat.zero_mul _).symm, UInt64.le_iff_toNat_le.mpr (Nat.zero_le _)⟩
    | append_singleton raws last ih =>
      have hlast := hraws last (List.mem_append_right _ (List.mem_singleton_self last))
      have hspent := ih fun raw hmem => hraws raw (List.mem_append_left _ hmem)
      rw [List.foldl_append, List.length_append]
      exact hspent.roundTrip hsize hal hpos hsmall hlast.2
  have hexceeds : (raws.foldl (roundTrip size alignment) { maxPoolSize }).ExceedsLimit
      size alignment := by
    rw [hspent.exceedsLimit_iff hpos hsmall]
    rcases hspent.count with hcount | hcount
    · rw [hcount, ← Nat.succ_mul]
      exact hlong
    · exact hcount
  refine ⟨hspent.idle, ?_⟩
  unfold allocateBytesAligned
  rw [if_neg hsize, if_pos hexceeds]

end DefaultMemoryPool
