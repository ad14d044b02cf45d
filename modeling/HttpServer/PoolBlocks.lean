import HttpServer.HeapTrace
import HttpServer.MemoryPool

/-!
# The blocks of the memory pool

`DefaultMemoryPool` with all its calls: `MemoryPool` says which requests are granted, and has no
`SetPreAllocation` and no `ClearPool`; here it is followed where its blocks are, too. A block is at
the address that `operator new` has returned (`raw`), and its header at another one, just below the
pointer that is handed out (`addr`). A block that was made in advance has its header in front. What
is given back to the heap is the address of the header.

The state forgets to the one of `MemoryPool`, and what the two have in common is computed alike
(`forget_allocateBytesAligned`, `forget_deallocateBytes`).
-/

/-- A block of the pool. -/
structure PoolBlock extends BlockHeader where
  /-- What `operator new` has returned for it. -/
  raw : UInt64
  /-- Where its header is. -/
  addr : UInt64
  deriving DecidableEq

/-- `DefaultMemoryPool`, with its blocks. -/
structure BlockPool where
  maxPoolSize : UInt64 := 1024 * 1024 * 100
  preAllocated : Bool := false
  freeList : List PoolBlock := []
  allocations : List (UInt64 × PoolBlock) := []
  totalPoolBytes : UInt64 := 0
  totalAllocatedBytes : UInt64 := 0
  usedBytes : UInt64 := 0
  allocationCount : UInt64 := 0
  deallocationCount : UInt64 := 0
  deriving DecidableEq

/-- A call of the pool. `raw` and `raws` are what `operator new` returns. -/
inductive PoolCall
  | allocateBytes (size raw : UInt64)
  | allocateBytesAligned (size alignment raw : UInt64)
  | deallocateBytes (ptr : UInt64)
  | setPreAllocation (enable : Bool) (raws : List UInt64)
  | setMaxPoolSize (maxSize : UInt64)
  | clearPool
  deriving DecidableEq

/-- `MemoryStats`. -/
structure MemoryStats where
  allocatedBytes : UInt64
  usedBytes : UInt64
  poolBytes : UInt64
  allocationCount : UInt64
  deallocationCount : UInt64
  deriving DecidableEq

namespace BlockPool

open DefaultMemoryPool (totalNeeded alignedPointer footprint)
open HeapTrace (HeapEvent)

variable (p : BlockPool)

/-! ## The source -/

/-- The limit on the pool. -/
def ExceedsLimit (size alignment : UInt64) : Prop :=
  p.maxPoolSize < p.totalPoolBytes + totalNeeded size alignment ∧ 0 < p.maxPoolSize

instance (size alignment : UInt64) : Decidable (p.ExceedsLimit size alignment) :=
  inferInstanceAs (Decidable (_ ∧ _))

/-- A request is granted. -/
def Grants (size alignment : UInt64) : Prop := size ≠ 0 ∧ ¬ p.ExceedsLimit size alignment

instance (size alignment : UInt64) : Decidable (p.Grants size alignment) :=
  inferInstanceAs (Decidable (_ ∧ _))

/-- `AllocateBytesAligned`: the pointer, which is null if the request is refused. -/
def allocateBytesAligned (size alignment raw : UInt64) : UInt64 × BlockPool :=
  if size = 0 then (0, p)
  else if p.ExceedsLimit size alignment then (0, p)
  else
    let aligned := alignedPointer raw alignment
    let header : PoolBlock :=
      { size, inUse := true, alignment, raw, addr := aligned - sizeofBlockHeader }
    (aligned, { p with
      allocations := (aligned, header) :: p.allocations.filter fun e => e.1 ≠ aligned
      totalPoolBytes := p.totalPoolBytes + totalNeeded size alignment
      totalAllocatedBytes := p.totalAllocatedBytes + size
      usedBytes := p.usedBytes + size
      allocationCount := p.allocationCount + 1 })

/-- `AllocateBytes`. -/
def allocateBytes (size raw : UInt64) : UInt64 × BlockPool :=
  p.allocateBytesAligned size alignofMaxAlign raw

/-- `DeallocateBytes`. -/
def deallocateBytes (ptr : UInt64) : BlockPool :=
  if ptr = 0 then p
  else
    match p.allocations.find? fun e => e.1 = ptr with
    | none => p
    | some (_, header) =>
      { p with
        freeList := { header with inUse := false } :: p.freeList
        allocations := p.allocations.filter fun e => e.1 ≠ ptr
        usedBytes := p.usedBytes - header.size
        deallocationCount := p.deallocationCount + 1 }

/-- The sizes of the blocks that `SetPreAllocation` makes, ten of each. -/
def preAllocatedSizes : List UInt64 := [64, 256, 1024].flatMap (List.replicate 10)

/-- One block of this size at the front of the free list, with its header in front. -/
def preAllocateBlock (size raw : UInt64) : BlockPool :=
  { p with
    freeList := { size, inUse := false, alignment := 0, raw, addr := raw } :: p.freeList
    totalPoolBytes := p.totalPoolBytes + (size + sizeofBlockHeader) }

/-- Blocks of these sizes, at these addresses. -/
def preAllocate : BlockPool → List (UInt64 × UInt64) → BlockPool
  | p, [] => p
  | p, (size, raw) :: blocks => (p.preAllocateBlock size raw).preAllocate blocks

/-- `SetPreAllocation`. -/
def setPreAllocation (enable : Bool) (raws : List UInt64) : BlockPool :=
  if enable && !p.preAllocated then
    { p.preAllocate (preAllocatedSizes.zip raws) with preAllocated := true }
  else if !enable && p.preAllocated then
    { p with freeList := [], totalPoolBytes := 0, preAllocated := false }
  else p

/-- `SetMaxPoolSize`. -/
def setMaxPoolSize (maxSize : UInt64) : BlockPool := { p with maxPoolSize := maxSize }

/-- `ClearPool`, which is also the destructor. -/
def clearPool : BlockPool :=
  { p with
    freeList := [], totalPoolBytes := 0, totalAllocatedBytes := 0, usedBytes := 0,
    allocationCount := 0, deallocationCount := 0 }

/-- `GetStats`. -/
def getStats : MemoryStats where
  allocatedBytes := p.totalAllocatedBytes
  usedBytes := p.usedBytes
  poolBytes := p.totalPoolBytes
  allocationCount := p.allocationCount
  deallocationCount := p.deallocationCount

/-! ## The heap -/

/-- The blocks that are in use. -/
def live : List PoolBlock := p.allocations.map Prod.snd

/-- All blocks that the pool holds. -/
def held : List PoolBlock := p.live ++ p.freeList

/-- The bytes that a block has of the heap. -/
def bytes (b : PoolBlock) : UInt64 := totalNeeded b.size b.alignment

/-- Where a block is. -/
def place (b : PoolBlock) : ℕ × ℕ := (b.raw.toNat, (bytes b).toNat)

/-- What `operator new` may return for a size: a multiple of `granule` where there is room that no
block of the pool takes. -/
def MayReturn (granule : ℕ) (size raw : UInt64) : Prop :=
  granule ∣ raw.toNat ∧ 0 < raw.toNat ∧ raw.toNat + size.toNat ≤ 2 ^ 64
    ∧ ∀ b ∈ p.held, HeapTrace.Apart (raw.toNat, size.toNat) (place b)

instance (granule : ℕ) (size raw : UInt64) : Decidable (p.MayReturn granule size raw) :=
  @instDecidableAnd _ _ _ (@instDecidableAnd _ _ _ (@instDecidableAnd _ _ _
    (@List.decidableBAll _ _ (fun _ => inferInstanceAs (Decidable (_ ∨ _))) _)))

/-- The same for block after block. -/
def MayReturnAll (granule : ℕ) : BlockPool → List (UInt64 × UInt64) → Prop
  | _, [] => True
  | p, (size, raw) :: blocks =>
    p.MayReturn granule (size + sizeofBlockHeader) raw
      ∧ MayReturnAll granule (p.preAllocateBlock size raw) blocks

instance decidableMayReturnAll (granule : ℕ) :
    ∀ (p : BlockPool) (blocks : List (UInt64 × UInt64)), Decidable (p.MayReturnAll granule blocks)
  | _, [] => inferInstanceAs (Decidable True)
  | p, (size, raw) :: blocks =>
    have := decidableMayReturnAll granule (p.preAllocateBlock size raw) blocks
    inferInstanceAs (Decidable (_ ∧ _))

/-- A call that the source has a meaning for: there is no alignment of zero, and what
`operator new` returns where it is called is what it may return. -/
def Admissible (granule : ℕ) : PoolCall → Prop
  | .allocateBytes size raw =>
    p.Grants size alignofMaxAlign → p.MayReturn granule (totalNeeded size alignofMaxAlign) raw
  | .allocateBytesAligned size alignment raw =>
    alignment ≠ 0
      ∧ (p.Grants size alignment → p.MayReturn granule (totalNeeded size alignment) raw)
  | .setPreAllocation enable raws =>
    enable = true → p.preAllocated = false →
      raws.length = 30 ∧ p.MayReturnAll granule (preAllocatedSizes.zip raws)
  | _ => True

instance (granule : ℕ) : DecidablePred (p.Admissible granule)
  | .allocateBytes _ _ => inferInstanceAs (Decidable (_ → _))
  | .allocateBytesAligned _ _ _ => inferInstanceAs (Decidable (_ ∧ _))
  | .setPreAllocation _ _ => inferInstanceAs (Decidable (_ → _ → _))
  | .deallocateBytes _ => inferInstanceAs (Decidable True)
  | .setMaxPoolSize _ => inferInstanceAs (Decidable True)
  | .clearPool => inferInstanceAs (Decidable True)

/-- What a call does. -/
def call : PoolCall → BlockPool
  | .allocateBytes size raw => (p.allocateBytes size raw).2
  | .allocateBytesAligned size alignment raw => (p.allocateBytesAligned size alignment raw).2
  | .deallocateBytes ptr => p.deallocateBytes ptr
  | .setPreAllocation enable raws => p.setPreAllocation enable raws
  | .setMaxPoolSize maxSize => p.setMaxPoolSize maxSize
  | .clearPool => p.clearPool

/-- What the heap is asked for when a request is granted. -/
def grantEvents (size alignment raw : UInt64) : List (HeapEvent UInt64) :=
  if p.Grants size alignment then [.new raw] else []

/-- The loop that gives the free list back. -/
def deleteFreeList : List (HeapEvent UInt64) := (p.freeList.map PoolBlock.addr).map .delete

/-- What the heap is asked for in a call. -/
def events : PoolCall → List (HeapEvent UInt64)
  | .allocateBytes size raw => p.grantEvents size alignofMaxAlign raw
  | .allocateBytesAligned size alignment raw => p.grantEvents size alignment raw
  | .setPreAllocation enable raws =>
    if enable && !p.preAllocated then raws.map .new
    else if !enable && p.preAllocated then p.deleteFreeList
    else []
  | .clearPool => p.deleteFreeList
  | _ => []

/-- The pool on a heap whose addresses are multiples of `granule`. -/
def machine (granule : ℕ) : Machine BlockPool PoolCall (List (HeapEvent UInt64)) where
  step p c := if p.Admissible granule c then some (p.call c, p.events c) else none

variable {p} {granule : ℕ} {size alignment raw : UInt64}

theorem machine_step {c : PoolCall} {r : BlockPool × List (HeapEvent UInt64)}
    (h : (machine granule).step p c = some r) :
    p.Admissible granule c ∧ r = (p.call c, p.events c) := by
  obtain ⟨hadm, h⟩ := Option.ite_none_right_eq_some.mp h
  cases h
  exact ⟨hadm, rfl⟩

theorem allocateBytesAligned_of_not_grants (h : ¬ p.Grants size alignment) :
    p.allocateBytesAligned size alignment raw = (0, p) := by
  unfold allocateBytesAligned
  split
  · rfl
  split
  · rfl
  · exact absurd ⟨‹_›, ‹_›⟩ h

theorem allocateBytesAligned_of_grants (h : p.Grants size alignment) :
    p.allocateBytesAligned size alignment raw = (alignedPointer raw alignment,
      { p with
        allocations := (alignedPointer raw alignment,
            { size, inUse := true, alignment, raw,
              addr := alignedPointer raw alignment - sizeofBlockHeader })
          :: p.allocations.filter fun e => e.1 ≠ alignedPointer raw alignment
        totalPoolBytes := p.totalPoolBytes + totalNeeded size alignment
        totalAllocatedBytes := p.totalAllocatedBytes + size
        usedBytes := p.usedBytes + size
        allocationCount := p.allocationCount + 1 }) := by
  unfold allocateBytesAligned
  rw [if_neg h.1, if_neg h.2]

/-! ## The pool of `MemoryPool` -/

/-- The pool without the places of its blocks. -/
def forget (p : BlockPool) : DefaultMemoryPool where
  maxPoolSize := p.maxPoolSize
  freeList := p.freeList.map PoolBlock.toBlockHeader
  allocations := p.allocations.map fun e => (e.1, e.2.toBlockHeader)
  totalPoolBytes := p.totalPoolBytes
  totalAllocatedBytes := p.totalAllocatedBytes
  usedBytes := p.usedBytes
  allocationCount := p.allocationCount
  deallocationCount := p.deallocationCount

/-- The blocks of other pointers. -/
theorem forget_filter (allocations : List (UInt64 × PoolBlock)) (ptr : UInt64) :
    (allocations.filter fun e => e.1 ≠ ptr).map (fun e => (e.1, e.2.toBlockHeader))
      = (allocations.map fun e => (e.1, e.2.toBlockHeader)).filter fun e => e.1 ≠ ptr := by
  rw [List.filter_map]
  rfl

/-- **A request is answered as there**, by the same pointer, and counted as there. -/
theorem forget_allocateBytesAligned (p : BlockPool) (size alignment raw : UInt64) :
    (p.allocateBytesAligned size alignment raw).1
        = (p.forget.allocateBytesAligned size alignment raw).1
      ∧ (p.allocateBytesAligned size alignment raw).2.forget
        = { (p.forget.allocateBytesAligned size alignment raw).2 with obtained := [] } := by
  unfold allocateBytesAligned DefaultMemoryPool.allocateBytesAligned
  by_cases hsize : size = 0
  · rw [if_pos hsize, if_pos hsize]
    exact ⟨rfl, rfl⟩
  · rw [if_neg hsize, if_neg hsize]
    by_cases hlimit : p.ExceedsLimit size alignment
    · rw [if_pos hlimit, if_pos (show p.forget.ExceedsLimit size alignment from hlimit)]
      exact ⟨rfl, rfl⟩
    · rw [if_neg hlimit, if_neg (show ¬ p.forget.ExceedsLimit size alignment from hlimit)]
      refine ⟨rfl, ?_⟩
      simp only [forget, List.map_cons, forget_filter]

/-- **A block is returned as there.** -/
theorem forget_deallocateBytes (p : BlockPool) (ptr : UInt64) :
    (p.deallocateBytes ptr).forget = p.forget.deallocateBytes ptr := by
  unfold deallocateBytes DefaultMemoryPool.deallocateBytes
  by_cases hptr : ptr = 0
  · rw [if_pos hptr, if_pos hptr]
  · rw [if_neg hptr, if_neg hptr]
    have hfind : (p.forget.allocations.find? fun e => e.1 = ptr)
        = (p.allocations.find? fun e => e.1 = ptr).map fun e => (e.1, e.2.toBlockHeader) := by
      show ((p.allocations.map _).find? _) = _
      rw [List.find?_map]
      rfl
    rw [hfind]
    cases p.allocations.find? fun e => e.1 = ptr with
    | none => rfl
    | some e =>
      show forget _ = _
      simp only [forget, List.map_cons, forget_filter, Option.map_some]

end BlockPool
