import HttpServer.PoolAccounts
import Mathlib.Data.List.Perm.Basic

/-!
# The buffer manager

`DefaultBufferManager` of `core/Buffer/buffer_manager.cpp` is a facade: it has a pool, a factory
and an operator. The statistics and the limit are those of its pool. The buffers come from the
factory, which has made a pool of its own, and go back there.

So nothing that is handed out is ever counted or limited by the pool that is asked
(`coherent_iff_along`). The pool of the factory does count it, wherever the buffers are moved in
the meantime (`factory_coherent`).
-/

/-- `Buffer`, as the factory makes it and as a move leaves it. The bytes in its block are left
out. -/
structure PooledBuffer where
  data : UInt64
  size : UInt64
  capacity : UInt64
  /-- Whether a deleter is set, which returns the block to the pool of the factory. -/
  deleter : Bool
  size_le : size ≤ capacity
  data_ne_zero : deleter = true → data ≠ 0
  empty : deleter = false → data = 0 ∧ capacity = 0

namespace PooledBuffer

/-- The constructor. -/
def make (data capacity : UInt64) (hdata : data ≠ 0) : PooledBuffer where
  data := data
  size := 0
  capacity := capacity
  deleter := true
  size_le := UInt64.le_iff_toNat_le.mpr (Nat.zero_le _)
  data_ne_zero := fun _ => hdata
  empty := fun h => Bool.noConfusion h

/-- What a move leaves behind. -/
def movedFrom : PooledBuffer where
  data := 0
  size := 0
  capacity := 0
  deleter := false
  size_le := UInt64.le_iff_toNat_le.mpr (Nat.zero_le _)
  data_ne_zero := fun h => Bool.noConfusion h
  empty := fun _ => ⟨rfl, rfl⟩

/-- `resize`. -/
def resize (b : PooledBuffer) (newSize : UInt64) : Except StdException PooledBuffer :=
  if h : b.capacity < newSize then .error .outOfRange
  else .ok { b with size := newSize, size_le := UInt64.not_lt.mp h }

/-- The buffer after `resize`, which leaves it as it is if it throws. -/
def resized (b : PooledBuffer) (newSize : UInt64) : PooledBuffer :=
  (b.resize newSize).toOption.getD b

/-- The buffer with its whole capacity in use. -/
def filled (b : PooledBuffer) : PooledBuffer :=
  { b with size := b.capacity, size_le := UInt64.le_iff_toNat_le.mpr (le_refl _) }

/-- The bytes of a view are put into the buffer, if there is room for them. -/
def putIn (b : PooledBuffer) (viewSize : UInt64) : PooledBuffer :=
  if viewSize = 0 then b
  else if b.capacity - b.size < viewSize then b
  else b.resized (b.size + viewSize)

/-- The same block, owned or not, with perhaps more or less of it in use. -/
def SameBlock (b b' : PooledBuffer) : Prop :=
  b'.data = b.data ∧ b'.capacity = b.capacity ∧ b'.deleter = b.deleter

theorem sameBlock_refl (b : PooledBuffer) : b.SameBlock b := ⟨rfl, rfl, rfl⟩

theorem sameBlock_filled (b : PooledBuffer) : b.SameBlock b.filled := ⟨rfl, rfl, rfl⟩

theorem sameBlock_resized (b : PooledBuffer) (newSize : UInt64) :
    b.SameBlock (b.resized newSize) := by
  unfold resized resize
  split
  · exact b.sameBlock_refl
  · exact ⟨rfl, rfl, rfl⟩

theorem sameBlock_putIn (b : PooledBuffer) (viewSize : UInt64) :
    b.SameBlock (b.putIn viewSize) := by
  unfold putIn
  split
  · exact b.sameBlock_refl
  split
  · exact b.sameBlock_refl
  · exact b.sameBlock_resized _

end PooledBuffer

/-- `DefaultBufferFactory`. -/
structure DefaultBufferFactory where
  pool : BlockPool := {}

namespace DefaultBufferFactory

variable (f : DefaultBufferFactory)

/-- `CreateBufferAligned`. `raw` is what `operator new` returns. -/
def createBufferAligned (size alignment raw : UInt64) :
    Option PooledBuffer × DefaultBufferFactory :=
  if size = 0 then (none, f)
  else
    let r := f.pool.allocateBytesAligned size alignment raw
    if h : r.1 = 0 then (none, { pool := r.2 })
    else (some (PooledBuffer.make r.1 size h), { pool := r.2 })

/-- `CreateBuffer`. -/
def createBuffer (size raw : UInt64) : Option PooledBuffer × DefaultBufferFactory :=
  f.createBufferAligned size alignofMaxAlign raw

/-- `CreateBuffer`, and then the buffer is filled. -/
def createFilled (size raw : UInt64) : Option PooledBuffer × DefaultBufferFactory :=
  ((f.createBuffer size raw).1.map PooledBuffer.filled, (f.createBuffer size raw).2)

/-- `CloneBuffer`, of a view of this size. -/
def cloneBuffer (viewSize raw : UInt64) : Option PooledBuffer × DefaultBufferFactory :=
  if viewSize = 0 then (none, f) else f.createFilled viewSize raw

/-- The destructor of a buffer, with the deleter of the factory. -/
def destroy (b : PooledBuffer) : DefaultBufferFactory :=
  if b.deleter && b.data ≠ 0 then { pool := f.pool.deallocateBytes b.data } else f

end DefaultBufferFactory

namespace DefaultBufferOperator

/-- `Append`, as far as sizes go. -/
def append (dest : PooledBuffer) (viewSize : UInt64) : PooledBuffer := dest.putIn viewSize

/-- `Prepend`, as far as sizes go. -/
def prepend (dest : PooledBuffer) (viewSize : UInt64) : PooledBuffer := dest.putIn viewSize

/-- `Merge`, of views of these sizes. -/
def merge (viewSizes : List UInt64) (factory : DefaultBufferFactory) (raw : UInt64) :
    Option PooledBuffer × DefaultBufferFactory :=
  factory.createFilled viewSizes.sum raw

/-- `Split`. -/
def split (src : PooledBuffer) (pos : UInt64) (factory : DefaultBufferFactory) (raw : UInt64) :
    Option PooledBuffer × DefaultBufferFactory :=
  if src.size < pos then (none, factory) else factory.createFilled (src.size - pos) raw

end DefaultBufferOperator

/-- `DefaultBufferManager`, with the buffers that exist, and with what the source does not keep:
how many blocks were handed out and given back. -/
structure DefaultBufferManager where
  pool : BlockPool := {}
  factory : DefaultBufferFactory := {}
  buffers : List PooledBuffer := []
  handedOut : ℕ := 0
  givenBack : ℕ := 0

/-- What is done with the manager and its buffers, which are named by their places. A view is its
size, and a buffer that is split can be any. -/
inductive BufferCall
  | allocate (size raw : UInt64)
  | allocateAligned (size alignment raw : UInt64)
  | cloneBuffer (viewSize raw : UInt64)
  | mergeBuffers (viewSizes : List UInt64) (raw : UInt64)
  | splitBuffer (src : PooledBuffer) (pos raw : UInt64)
  /-- `ReturnBuffer`, or the end of a buffer. -/
  | returnBuffer (i : ℕ)
  /-- A new buffer is made from this one by a move. -/
  | moveConstruct (i : ℕ)
  /-- The first one is assigned the second by a move. -/
  | moveAssign (i j : ℕ)
  | appendBuffer (i : ℕ) (viewSize : UInt64)
  | prependBuffer (i : ℕ) (viewSize : UInt64)
  | resize (i : ℕ) (newSize : UInt64)
  | setMaxPoolSize (maxSize : UInt64)

namespace DefaultBufferManager

open DefaultMemoryPool (totalNeeded alignedPointer footprint)

variable (m : DefaultBufferManager)

/-! ## The source -/

/-- `GetStats`. -/
def getStats : MemoryStats := m.pool.getStats

/-- The caller gets what was made. -/
def handOut (r : Option PooledBuffer × DefaultBufferFactory) :
    Option PooledBuffer × DefaultBufferManager :=
  match r.1 with
  | none => (none, { m with factory := r.2 })
  | some b => (some b, { m with
      factory := r.2, buffers := m.buffers ++ [b], handedOut := m.handedOut + 1 })

/-- A buffer lets go of its block. -/
def release (b : PooledBuffer) : DefaultBufferManager :=
  { m with
    factory := m.factory.destroy b
    givenBack := m.givenBack + if b.deleter then 1 else 0 }

/-- One of the buffers is changed in place. -/
def modifyBuffer (i : ℕ) (change : PooledBuffer → PooledBuffer) : DefaultBufferManager :=
  match m.buffers[i]? with
  | none => m
  | some b => { m with buffers := m.buffers.set i (change b) }

/-- `ReturnBuffer`; where there is no buffer the pointer is null. -/
def returnBuffer (i : ℕ) : DefaultBufferManager :=
  match m.buffers[i]? with
  | none => m
  | some b => { m.release b with buffers := m.buffers.eraseIdx i }

/-- `Buffer(Buffer&&)`. -/
def moveConstruct (i : ℕ) : DefaultBufferManager :=
  match m.buffers[i]? with
  | none => m
  | some b => { m with buffers := m.buffers.set i PooledBuffer.movedFrom ++ [b] }

/-- `operator=(Buffer&&)`. -/
def moveAssign (i j : ℕ) : DefaultBufferManager :=
  if i = j then m
  else
    match m.buffers[i]?, m.buffers[j]? with
    | some dest, some src =>
      { m.release dest with buffers := (m.buffers.set i src).set j PooledBuffer.movedFrom }
    | _, _ => m

/-- What a call does, and the buffer that it returns. -/
def call : BufferCall → Option PooledBuffer × DefaultBufferManager
  | .allocate size raw => m.handOut (m.factory.createBuffer size raw)
  | .allocateAligned size alignment raw =>
    m.handOut (m.factory.createBufferAligned size alignment raw)
  | .cloneBuffer viewSize raw => m.handOut (m.factory.cloneBuffer viewSize raw)
  | .mergeBuffers viewSizes raw => m.handOut (DefaultBufferOperator.merge viewSizes m.factory raw)
  | .splitBuffer src pos raw => m.handOut (DefaultBufferOperator.split src pos m.factory raw)
  | .returnBuffer i => (none, m.returnBuffer i)
  | .moveConstruct i => (none, m.moveConstruct i)
  | .moveAssign i j => (none, m.moveAssign i j)
  | .appendBuffer i viewSize =>
    (none, m.modifyBuffer i fun b => DefaultBufferOperator.append b viewSize)
  | .prependBuffer i viewSize =>
    (none, m.modifyBuffer i fun b => DefaultBufferOperator.prepend b viewSize)
  | .resize i newSize => (none, m.modifyBuffer i fun b => b.resized newSize)
  | .setMaxPoolSize maxSize => (none, { m with pool := m.pool.setMaxPoolSize maxSize })

/-! ## What is promised -/

/-- The size, the alignment and the address of the block that a call asks the factory for. -/
def request : BufferCall → Option (UInt64 × UInt64 × UInt64)
  | .allocate size raw => some (size, alignofMaxAlign, raw)
  | .allocateAligned size alignment raw => some (size, alignment, raw)
  | .cloneBuffer viewSize raw => some (viewSize, alignofMaxAlign, raw)
  | .mergeBuffers viewSizes raw => some (viewSizes.sum, alignofMaxAlign, raw)
  | .splitBuffer src pos raw =>
    if src.size < pos then none else some (src.size - pos, alignofMaxAlign, raw)
  | _ => none

/-- The bytes in the buffers that are out. -/
def capacities : ℕ := (m.buffers.map fun b => b.capacity.toNat).sum

/-- **These statistics are those of the buffers**: the bytes in use are those of the buffers that
are out, and the counts are how many were handed out and given back. -/
def Coherent (stats : MemoryStats) : Prop :=
  stats.usedBytes.toNat = m.capacities
    ∧ stats.allocationCount.toNat = m.handedOut
    ∧ stats.deallocationCount.toNat = m.givenBack

instance (stats : MemoryStats) : Decidable (m.Coherent stats) :=
  inferInstanceAs (Decidable (_ ∧ _))

/-- **A buffer that is handed out is within the limit**, together with those that are out. -/
def WithinLimit (limit : UInt64) (c : BufferCall) : Prop :=
  ∀ b, (m.call c).1 = some b → 0 < limit → (m.call c).2.capacities ≤ limit.toNat

/-- **The request of a call is granted**: the pool of the factory has room for it, and there is a
pointer into the block. -/
def HandsOut (c : BufferCall) : Prop :=
  ∃ size alignment raw, request c = some (size, alignment, raw)
    ∧ m.factory.pool.Grants size alignment ∧ alignedPointer raw alignment ≠ 0

/-- A call that the source has a meaning for, on a heap whose addresses are multiples of
`granule`. -/
def Admissible (granule : ℕ) (c : BufferCall) : Prop :=
  match request c with
  | none => True
  | some (size, alignment, raw) =>
    m.factory.pool.Admissible granule (.allocateBytesAligned size alignment raw)

instance (granule : ℕ) : DecidablePred (m.Admissible granule) := fun c => by
  unfold Admissible
  cases request c with
  | none => exact inferInstanceAs (Decidable True)
  | some r => exact inferInstanceAs (Decidable (BlockPool.Admissible _ _ _))

/-- The manager as a machine; the result is the buffer that is handed out. -/
def machine (granule : ℕ) : Machine DefaultBufferManager BufferCall (Option PooledBuffer) where
  step m c := if m.Admissible granule c then some ((m.call c).2, (m.call c).1) else none

variable {m} {granule : ℕ} {c : BufferCall}

theorem machine_step {r : DefaultBufferManager × Option PooledBuffer}
    (h : (machine granule).step m c = some r) : m.Admissible granule c ∧ r.1 = (m.call c).2 := by
  obtain ⟨hadm, h⟩ := Option.ite_none_right_eq_some.mp h
  cases h
  exact ⟨hadm, rfl⟩

/-! ## One call -/

/-- The pool of the factory is asked once. -/
theorem createBufferAligned_snd (f : DefaultBufferFactory) (size alignment raw : UInt64) :
    (f.createBufferAligned size alignment raw).2
      = { pool := (f.pool.allocateBytesAligned size alignment raw).2 } := by
  unfold DefaultBufferFactory.createBufferAligned
  split
  · rename_i hsize
    rw [BlockPool.allocateBytesAligned, if_pos hsize]
  · dsimp only
    split <;> rfl

theorem createBufferAligned_of_granted {f : DefaultBufferFactory} {size alignment raw : UInt64}
    (hgrants : f.pool.Grants size alignment) (hpointer : alignedPointer raw alignment ≠ 0) :
    (f.createBufferAligned size alignment raw).1
      = some (PooledBuffer.make (alignedPointer raw alignment) size hpointer) := by
  unfold DefaultBufferFactory.createBufferAligned
  rw [if_neg hgrants.1]
  simp only [BlockPool.allocateBytesAligned_of_grants hgrants]
  rw [dif_neg hpointer]

theorem createBufferAligned_of_refused {f : DefaultBufferFactory} {size alignment raw : UInt64}
    (h : ¬ (f.pool.Grants size alignment ∧ alignedPointer raw alignment ≠ 0)) :
    (f.createBufferAligned size alignment raw).1 = none := by
  have hnull : (f.pool.allocateBytesAligned size alignment raw).1 = 0 := by
    by_cases hgrants : f.pool.Grants size alignment
    · rw [BlockPool.allocateBytesAligned_of_grants hgrants]
      exact not_not.mp fun hpointer => h ⟨hgrants, hpointer⟩
    · rw [BlockPool.allocateBytesAligned_of_not_grants hgrants]
  unfold DefaultBufferFactory.createBufferAligned
  split
  · rfl
  · dsimp only
    rw [dif_pos hnull]

/-- **A call that makes a buffer** hands out what `CreateBufferAligned` makes; its size may be
another one then. -/
theorem call_of_request {size alignment raw : UInt64}
    (hrequest : request c = some (size, alignment, raw)) :
    ∃ change : PooledBuffer → PooledBuffer,
      (∀ b : PooledBuffer, b.SameBlock (change b))
      ∧ m.call c = m.handOut ((m.factory.createBufferAligned size alignment raw).1.map change,
          (m.factory.createBufferAligned size alignment raw).2) := by
  cases c with
  | allocate size' raw' =>
    cases hrequest
    refine ⟨id, PooledBuffer.sameBlock_refl, ?_⟩
    rw [Option.map_id]
    rfl
  | allocateAligned size' alignment' raw' =>
    cases hrequest
    refine ⟨id, PooledBuffer.sameBlock_refl, ?_⟩
    rw [Option.map_id]
    rfl
  | cloneBuffer viewSize raw' =>
    cases hrequest
    refine ⟨PooledBuffer.filled, PooledBuffer.sameBlock_filled, ?_⟩
    rw [call, DefaultBufferFactory.cloneBuffer]
    split
    · rename_i hzero
      rw [hzero]
      rfl
    · rfl
  | mergeBuffers viewSizes raw' =>
    cases hrequest
    exact ⟨PooledBuffer.filled, PooledBuffer.sameBlock_filled, rfl⟩
  | splitBuffer src pos raw' =>
    rw [request] at hrequest
    split at hrequest
    · cases hrequest
    · rename_i hpos
      cases hrequest
      refine ⟨PooledBuffer.filled, PooledBuffer.sameBlock_filled, ?_⟩
      rw [call, DefaultBufferOperator.split, if_neg hpos]
      rfl
  | _ => cases hrequest

/-- **A request that is granted.** -/
theorem call_of_granted {size alignment raw : UInt64}
    (hrequest : request c = some (size, alignment, raw))
    (hgrants : m.factory.pool.Grants size alignment) (hpointer : alignedPointer raw alignment ≠ 0) :
    ∃ b : PooledBuffer, b.data = alignedPointer raw alignment ∧ b.capacity = size
      ∧ b.deleter = true
      ∧ m.call c = (some b, { m with
          factory := { pool := (m.factory.pool.allocateBytesAligned size alignment raw).2 }
          buffers := m.buffers ++ [b], handedOut := m.handedOut + 1 }) := by
  obtain ⟨change, hchange, hcall⟩ := call_of_request (m := m) hrequest
  obtain ⟨hdata, hcapacity, hdeleter⟩ :=
    hchange (PooledBuffer.make (alignedPointer raw alignment) size hpointer)
  refine ⟨_, hdata, hcapacity, hdeleter, ?_⟩
  rw [hcall, createBufferAligned_of_granted hgrants hpointer, createBufferAligned_snd]
  rfl

/-- **A request that is refused.** -/
theorem call_of_refused {size alignment raw : UInt64}
    (hrequest : request c = some (size, alignment, raw))
    (h : ¬ (m.factory.pool.Grants size alignment ∧ alignedPointer raw alignment ≠ 0)) :
    m.call c = (none, { m with
      factory := { pool := (m.factory.pool.allocateBytesAligned size alignment raw).2 } }) := by
  obtain ⟨change, -, hcall⟩ := call_of_request (m := m) hrequest
  rw [hcall, createBufferAligned_of_refused h, createBufferAligned_snd]
  rfl

/-- Behind the end of a buffer there is nothing to split off. -/
theorem call_splitBuffer {src : PooledBuffer} {pos raw : UInt64}
    (hrequest : request (.splitBuffer src pos raw) = none) :
    m.call (.splitBuffer src pos raw) = (none, m) := by
  rw [request] at hrequest
  split at hrequest
  · rename_i hpos
    rw [call, DefaultBufferOperator.split, if_pos hpos]
    rfl
  · cases hrequest

/-- Without a request no buffer is returned. -/
theorem call_fst_of_request_eq_none (hrequest : request c = none) : (m.call c).1 = none := by
  cases c with
  | splitBuffer src pos raw => rw [call_splitBuffer hrequest]
  | allocate | allocateAligned | cloneBuffer | mergeBuffers => cases hrequest
  | _ => rfl

theorem call_fst_of_not_handsOut (h : ¬ m.HandsOut c) : (m.call c).1 = none := by
  cases hrequest : request c with
  | none => exact call_fst_of_request_eq_none hrequest
  | some r =>
    obtain ⟨size, alignment, raw⟩ := r
    rw [call_of_refused hrequest fun hgranted => h ⟨size, alignment, raw, hrequest, hgranted⟩]

/-! ## Nothing is handed out -/

/-- **A manager that has handed nothing out.** -/
structure Idle (m : DefaultBufferManager) : Prop where
  buffers : m.buffers = []
  handedOut : m.handedOut = 0
  givenBack : m.givenBack = 0
  usedBytes : m.pool.usedBytes = 0
  allocationCount : m.pool.allocationCount = 0
  deallocationCount : m.pool.deallocationCount = 0

theorem idle_new : Idle {} := ⟨rfl, rfl, rfl, rfl, rfl, rfl⟩

theorem Idle.coherent (h : m.Idle) : m.Coherent m.getStats := by
  refine ⟨?_, ?_, ?_⟩
  · show m.pool.usedBytes.toNat = m.capacities
    rw [h.usedBytes, capacities, h.buffers]
    rfl
  · show m.pool.allocationCount.toNat = m.handedOut
    rw [h.allocationCount, h.handedOut]
    rfl
  · show m.pool.deallocationCount.toNat = m.givenBack
    rw [h.deallocationCount, h.givenBack]
    rfl

/-- The factory is its own affair. -/
theorem Idle.of_factory (h : m.Idle) (factory : DefaultBufferFactory) :
    ({ m with factory } : DefaultBufferManager).Idle :=
  ⟨h.buffers, h.handedOut, h.givenBack, h.usedBytes, h.allocationCount, h.deallocationCount⟩

/-- There is no buffer to do anything with. -/
theorem Idle.getElem? (h : m.Idle) (i : ℕ) : m.buffers[i]? = none := by
  rw [h.buffers, List.getElem?_nil]

theorem Idle.modifyBuffer (h : m.Idle) (i : ℕ) (change : PooledBuffer → PooledBuffer) :
    (m.modifyBuffer i change).Idle := by
  rw [DefaultBufferManager.modifyBuffer, h.getElem?]
  exact h

theorem Idle.call (h : m.Idle) (hc : ¬ m.HandsOut c) : (m.call c).2.Idle := by
  cases hrequest : request c with
  | some r =>
    obtain ⟨size, alignment, raw⟩ := r
    rw [call_of_refused hrequest fun hgranted => hc ⟨size, alignment, raw, hrequest, hgranted⟩]
    exact h.of_factory _
  | none =>
    cases c with
    | allocate | allocateAligned | cloneBuffer | mergeBuffers => cases hrequest
    | splitBuffer src pos raw =>
      rw [call_splitBuffer hrequest]
      exact h
    | returnBuffer i =>
      show (m.returnBuffer i).Idle
      rw [returnBuffer, h.getElem?]
      exact h
    | moveConstruct i =>
      show (m.moveConstruct i).Idle
      rw [moveConstruct, h.getElem?]
      exact h
    | moveAssign i j =>
      show (m.moveAssign i j).Idle
      rw [moveAssign, h.getElem?]
      split <;> exact h
    | appendBuffer i viewSize => exact h.modifyBuffer i _
    | prependBuffer i viewSize => exact h.modifyBuffer i _
    | resize i newSize => exact h.modifyBuffer i _
    | setMaxPoolSize maxSize =>
      exact ⟨h.buffers, h.handedOut, h.givenBack, h.usedBytes, h.allocationCount,
        h.deallocationCount⟩

/-- **What is handed out is not counted.** -/
theorem Idle.not_coherent (h : m.Idle) (hc : m.HandsOut c) :
    ¬ (m.call c).2.Coherent (m.call c).2.getStats := by
  obtain ⟨size, alignment, raw, hrequest, hgrants, hpointer⟩ := hc
  obtain ⟨b, -, -, -, hcall⟩ := call_of_granted hrequest hgrants hpointer
  rw [hcall]
  rintro ⟨-, hcount, -⟩
  have hone : m.pool.allocationCount.toNat = m.handedOut + 1 := hcount
  rw [h.allocationCount, h.handedOut] at hone
  cases hone

/-- **When the manager is coherent.** Through a run of a new manager, on any heap, the statistics
are those of the buffers that it hands out and every buffer is within the limit, exactly if it
hands out none: no request is granted by the pool of the factory. -/
theorem coherent_iff_along (granule : ℕ) (calls : List BufferCall) :
    ((machine granule).Always (fun m => m.Coherent m.getStats) {} calls
        ∧ (machine granule).Along (fun m c => m.WithinLimit m.pool.maxPoolSize c) {} calls)
      ↔ (machine granule).Along (fun m c => ¬ m.HandsOut c) {} calls := by
  have hkeep : ∀ (m : DefaultBufferManager) c r, m.Idle → ¬ m.HandsOut c →
      (machine granule).step m c = some r → r.1.Idle := by
    intro m c r h hc hr
    rw [(machine_step hr).2]
    exact h.call hc
  constructor
  · rintro ⟨halways, -⟩
    refine (Machine.always_iff_along (fun _ h => Idle.coherent h) hkeep ?_ idle_new).mp halways
    intro m c r h hc hr
    rw [(machine_step hr).2]
    exact h.not_coherent (not_not.mp hc)
  · intro halong
    refine ⟨Machine.always_of_along (fun _ h => Idle.coherent h) hkeep idle_new halong,
      Machine.along_of_along hkeep (fun m c r h hc hr b hb => ?_) idle_new halong⟩
    rw [call_fst_of_not_handsOut hc] at hb
    cases hb

/-- A manager that has handed out a buffer of fifty bytes says that there is none. -/
theorem allocate_not_counted :
    ¬ ((machine 16).Always (fun m => m.Coherent m.getStats) {} [.allocate 50 0x1000]
      ∧ (machine 16).Along (fun m c => m.WithinLimit m.pool.maxPoolSize c) {}
        [.allocate 50 0x1000]) := by
  rintro ⟨halways, -⟩
  exact absurd halways (by decide +kernel)

end DefaultBufferManager
