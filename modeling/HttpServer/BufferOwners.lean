import HttpServer.BufferManager

/-!
# The owners of the buffers

A `Buffer` owns a block of the pool of its factory. A move takes the block from one buffer to
another, and the one that has it at last gives it back. So the blocks in use of that pool are at
every time those of the buffers (`Tracked`), whoever has them.

Hence the statistics of the pool of the factory are the ones that the manager should have:
`factory_coherent` says that they are coherent with the buffers, and that these are within the
limit of that pool.
-/

namespace DefaultBufferManager

open DefaultMemoryPool (totalNeeded alignedPointer footprint)

variable {m : DefaultBufferManager} {granule : ℕ} {c : BufferCall}

/-! ## What the buffers own -/

/-- The blocks that these buffers own: their pointers and sizes. -/
def owned (buffers : List PooledBuffer) : List (UInt64 × UInt64) :=
  (buffers.filter PooledBuffer.deleter).map fun b => (b.data, b.capacity)

theorem owned_perm {buffers buffers' : List PooledBuffer} (h : buffers.Perm buffers') :
    (owned buffers).Perm (owned buffers') :=
  (h.filter PooledBuffer.deleter).map _

theorem owned_cons_of_deleter {b : PooledBuffer} (h : b.deleter = true)
    (buffers : List PooledBuffer) :
    owned (b :: buffers) = (b.data, b.capacity) :: owned buffers := by
  rw [owned, List.filter_cons_of_pos h]
  rfl

theorem owned_cons_of_not_deleter {b : PooledBuffer} (h : b.deleter = false)
    (buffers : List PooledBuffer) : owned (b :: buffers) = owned buffers := by
  rw [owned, List.filter_cons_of_neg (by rw [h]; exact Bool.noConfusion)]
  rfl

/-- A buffer that owns nothing has no capacity. -/
theorem sum_capacity_eq (buffers : List PooledBuffer) :
    (buffers.map fun b => b.capacity.toNat).sum = ((owned buffers).map fun e => e.2.toNat).sum := by
  induction buffers with
  | nil => rfl
  | cons b buffers ih =>
    rw [List.map_cons, List.sum_cons, ih]
    cases hdeleter : b.deleter with
    | true => rw [owned_cons_of_deleter hdeleter, List.map_cons, List.sum_cons]
    | false =>
      rw [owned_cons_of_not_deleter hdeleter, (b.empty hdeleter).2]
      exact Nat.zero_add _

/-- One of the buffers, and the others. -/
theorem owned_perm_of_getElem? {buffers : List PooledBuffer} {i : ℕ} {b : PooledBuffer}
    (hb : buffers[i]? = some b) : (owned buffers).Perm (owned (b :: buffers.eraseIdx i)) := by
  obtain ⟨hi, rfl⟩ := List.getElem?_eq_some_iff.mp hb
  exact owned_perm (List.getElem_cons_eraseIdx_perm hi).symm

/-- One of the buffers is replaced. -/
theorem owned_set_perm {buffers : List PooledBuffer} {i : ℕ} {b : PooledBuffer}
    (hb : buffers[i]? = some b) (b' : PooledBuffer) :
    (owned (buffers.set i b')).Perm (owned (b' :: buffers.eraseIdx i)) :=
  owned_perm (List.set_perm_cons_eraseIdx (List.getElem?_eq_some_iff.mp hb).1 b')

/-- What has been moved is owned by the other one. -/
theorem owned_moveAssign {buffers : List PooledBuffer} {i j : ℕ} {dest src : PooledBuffer}
    (hne : i ≠ j) (hdest : buffers[i]? = some dest) (hsrc : buffers[j]? = some src) :
    (owned ((buffers.set i src).set j PooledBuffer.movedFrom)).Perm
      (owned (buffers.eraseIdx i)) := by
  have hsrc' : (buffers.set i src)[j]? = some src := by
    rw [List.getElem?_set_ne hne]
    exact hsrc
  obtain ⟨hi, -⟩ := List.getElem?_eq_some_iff.mp hdest
  obtain ⟨hj, hget⟩ := List.getElem?_eq_some_iff.mp hsrc'
  -- apart from the source there are the others: with it they are all but the target
  have hothers : (src :: (buffers.set i src).eraseIdx j).Perm (src :: buffers.eraseIdx i) := by
    have hperm := List.getElem_cons_eraseIdx_perm hj
    rw [hget] at hperm
    exact hperm.trans (List.set_perm_cons_eraseIdx hi src)
  refine (owned_set_perm hsrc' PooledBuffer.movedFrom).trans ?_
  rw [owned_cons_of_not_deleter rfl]
  exact owned_perm hothers.cons_inv

/-! ## The invariant -/

/-- **The pool of the factory keeps track of the buffers**: its blocks in use are those that the
buffers own, and its counts are how many were handed out and given back. -/
structure Tracked (m : DefaultBufferManager) : Prop where
  accounts : m.factory.pool.Accounts
  owned : (owned m.buffers).Perm (m.factory.pool.allocations.map fun e => (e.1, e.2.size))
  handedOut : m.factory.pool.allocationCount.toNat = m.handedOut
  givenBack : m.factory.pool.deallocationCount.toNat = m.givenBack

theorem tracked_new : Tracked {} where
  accounts := BlockPool.accounts_new
  owned := List.Perm.nil
  handedOut := rfl
  givenBack := rfl

/-- The bytes in the buffers are the bytes in use. -/
theorem Tracked.capacities_eq (h : m.Tracked) :
    m.capacities = (m.factory.pool.live.map fun b => b.size.toNat).sum := by
  rw [capacities, sum_capacity_eq, (h.owned.map fun e => e.2.toNat).sum_eq, BlockPool.live,
    List.map_map, List.map_map]
  rfl

theorem Tracked.coherent (h : m.Tracked) : m.Coherent m.factory.pool.getStats :=
  ⟨h.accounts.used.trans h.capacities_eq.symm, h.handedOut, h.givenBack⟩

/-- Buffers that own the same are tracked alike. -/
theorem Tracked.of_owned (h : m.Tracked) {buffers : List PooledBuffer}
    (howned : (DefaultBufferManager.owned buffers).Perm (DefaultBufferManager.owned m.buffers)) :
    ({ m with buffers } : DefaultBufferManager).Tracked :=
  ⟨h.accounts, howned.trans h.owned, h.handedOut, h.givenBack⟩

/-! ## Buffers that are made -/

/-- A request of a call stays within `size_t` if it is granted. -/
def CountsUp (m : DefaultBufferManager) (c : BufferCall) : Prop :=
  ∀ size alignment raw, request c = some (size, alignment, raw) →
    m.factory.pool.CountsUp size alignment

/-- **A new buffer owns the new block.** -/
theorem Tracked.grant (h : m.Tracked) {size alignment raw : UInt64} (hal : alignment ≠ 0)
    (hgrants : m.factory.pool.Grants size alignment)
    (hbound : footprint size alignment < 2 ^ 64 ∧ m.factory.pool.allocationCount.toNat + 1 < 2 ^ 64)
    (hreturn : m.factory.pool.MayReturn granule (totalNeeded size alignment) raw)
    {b : PooledBuffer} (hdata : b.data = alignedPointer raw alignment)
    (hcapacity : b.capacity = size) (hdeleter : b.deleter = true) :
    ({ m with
      factory := { pool := (m.factory.pool.allocateBytesAligned size alignment raw).2 }
      buffers := m.buffers ++ [b], handedOut := m.handedOut + 1 } :
        DefaultBufferManager).Tracked := by
  have hnew := h.accounts.packed.cons_of_mayReturn hreturn
  rw [DefaultMemoryPool.toNat_totalNeeded hbound.1] at hnew
  refine ⟨h.accounts.grant hal hgrants hbound hreturn, ?_, ?_, ?_⟩
  · show (DefaultBufferManager.owned (m.buffers ++ [b])).Perm _
    refine (owned_perm List.perm_append_comm).trans ?_
    rw [List.singleton_append, owned_cons_of_deleter hdeleter, hdata, hcapacity,
      BlockPool.allocateBytesAligned_of_grants hgrants,
      h.accounts.filter_alignedPointer hal hgrants.1 hnew]
    exact h.owned.cons _
  · rw [BlockPool.allocateBytesAligned_of_grants hgrants]
    show (m.factory.pool.allocationCount + 1).toNat = m.handedOut + 1
    rw [DefaultMemoryPool.toNat_add_of_lt hbound.2, h.handedOut]
    rfl
  · rw [BlockPool.allocateBytesAligned_of_grants hgrants]
    exact h.givenBack

/-- A call that makes a buffer. -/
theorem Tracked.make (h : m.Tracked) {size alignment raw : UInt64}
    (hrequest : request c = some (size, alignment, raw)) (hadm : m.Admissible granule c)
    (hc : m.CountsUp c) : (m.call c).2.Tracked := by
  unfold Admissible at hadm
  rw [hrequest] at hadm
  obtain ⟨hal, hreturn⟩ := hadm
  by_cases hgrants : m.factory.pool.Grants size alignment
  · have hbound := hc size alignment raw hrequest hgrants
    have hroom := (hreturn hgrants).2.2.1
    have hpointer := DefaultMemoryPool.alignedPointer_ne_zero hal hgrants.1 hbound.1 hroom
    obtain ⟨b, hdata, hcapacity, hdeleter, hcall⟩ := call_of_granted hrequest hgrants hpointer
    rw [hcall]
    exact h.grant hal hgrants hbound (hreturn hgrants) hdata hcapacity hdeleter
  · rw [call_of_refused hrequest fun hgranted => hgrants hgranted.1,
      BlockPool.allocateBytesAligned_of_not_grants hgrants]
    exact h

/-! ## Buffers that come back -/

/-- **A buffer lets go of its block**, which is in use until then. -/
theorem Tracked.release (h : m.Tracked) {i : ℕ} {b : PooledBuffer} (hb : m.buffers[i]? = some b)
    {buffers : List PooledBuffer}
    (howned : (DefaultBufferManager.owned buffers).Perm
      (DefaultBufferManager.owned (m.buffers.eraseIdx i))) :
    ({ m.release b with buffers } : DefaultBufferManager).Tracked := by
  have hperm := (owned_perm_of_getElem? hb).symm.trans h.owned
  cases hdeleter : b.deleter with
  | false =>
    rw [owned_cons_of_not_deleter hdeleter] at hperm
    rw [DefaultBufferManager.release, DefaultBufferFactory.destroy, hdeleter]
    exact ⟨h.accounts, howned.trans hperm, h.handedOut, h.givenBack⟩
  | true =>
    have hdata := b.data_ne_zero hdeleter
    rw [owned_cons_of_deleter hdeleter] at hperm
    obtain ⟨e, he, hblock⟩ := List.mem_map.mp (hperm.subset List.mem_cons_self)
    obtain ⟨hkey, hsize⟩ := Prod.mk.inj hblock
    have he' : (b.data, e.2) ∈ m.factory.pool.allocations := by
      rw [← hkey]
      exact he
    obtain ⟨hallocations, hcount, hcount'⟩ := BlockPool.deallocateBytes_of_mem he' hdata
    have hdestroy : m.factory.destroy b = { pool := m.factory.pool.deallocateBytes b.data } := by
      rw [DefaultBufferFactory.destroy, hdeleter, if_pos]
      exact Bool.and_eq_true_iff.mpr ⟨rfl, decide_eq_true hdata⟩
    rw [DefaultBufferManager.release, hdestroy, hdeleter]
    refine ⟨h.accounts.deallocateBytes b.data, ?_, ?_, ?_⟩
    · -- one block in use has the pointer of the buffer; the others are those of the others
      have hothers := (BlockPool.perm_cons_filter_key h.accounts.keys he).map
        fun e => (e.1, e.2.size)
      rw [List.map_cons, hkey, hsize] at hothers
      refine howned.trans ?_
      show (DefaultBufferManager.owned _).Perm
        ((m.factory.pool.deallocateBytes b.data).allocations.map fun e => (e.1, e.2.size))
      rw [hallocations]
      exact (hperm.trans hothers).cons_inv
    · show (m.factory.pool.deallocateBytes b.data).allocationCount.toNat = m.handedOut
      rw [hcount]
      exact h.handedOut
    · show (m.factory.pool.deallocateBytes b.data).deallocationCount.toNat = m.givenBack + 1
      have hlive : 0 < m.factory.pool.live.length :=
        List.length_pos_of_mem (List.mem_map_of_mem he)
      rw [hcount', h.accounts.toNat_deallocationCount_add_one hlive, h.givenBack]

/-! ## Runs -/

/-- A change of the size is none of the block. -/
theorem Tracked.modifyBuffer (h : m.Tracked) (i : ℕ) {change : PooledBuffer → PooledBuffer}
    (hchange : ∀ b : PooledBuffer, b.SameBlock (change b)) : (m.modifyBuffer i change).Tracked := by
  unfold DefaultBufferManager.modifyBuffer
  cases hb : m.buffers[i]? with
  | none => exact h
  | some b =>
    obtain ⟨hdata, hcapacity, hdeleter⟩ := hchange b
    refine h.of_owned ((owned_set_perm hb _).trans ?_)
    refine List.Perm.trans ?_ (owned_perm_of_getElem? hb).symm
    cases hd : b.deleter with
    | true =>
      rw [owned_cons_of_deleter hd, owned_cons_of_deleter (hdeleter.trans hd), hdata, hcapacity]
    | false => rw [owned_cons_of_not_deleter hd, owned_cons_of_not_deleter (hdeleter.trans hd)]

theorem Tracked.returnBuffer (h : m.Tracked) (i : ℕ) : (m.returnBuffer i).Tracked := by
  unfold DefaultBufferManager.returnBuffer
  cases hb : m.buffers[i]? with
  | none => exact h
  | some b => exact h.release hb (List.Perm.refl _)

theorem Tracked.moveConstruct (h : m.Tracked) (i : ℕ) : (m.moveConstruct i).Tracked := by
  unfold DefaultBufferManager.moveConstruct
  cases hb : m.buffers[i]? with
  | none => exact h
  | some b =>
    refine h.of_owned ?_
    have hset := List.set_perm_cons_eraseIdx (List.getElem?_eq_some_iff.mp hb).1
      PooledBuffer.movedFrom
    refine (owned_perm (List.perm_append_comm.trans (hset.cons b))).trans ?_
    refine (owned_perm (List.Perm.swap PooledBuffer.movedFrom b _)).trans ?_
    rw [owned_cons_of_not_deleter rfl]
    exact (owned_perm_of_getElem? hb).symm

theorem Tracked.moveAssign (h : m.Tracked) (i j : ℕ) : (m.moveAssign i j).Tracked := by
  unfold DefaultBufferManager.moveAssign
  split
  · exact h
  · rename_i hne
    split
    · rename_i dest src hdest hsrc
      exact h.release hdest (owned_moveAssign hne hdest hsrc)
    · exact h

/-- **Every call keeps track of the buffers.** -/
theorem Tracked.call (h : m.Tracked) (hadm : m.Admissible granule c) (hc : m.CountsUp c) :
    (m.call c).2.Tracked := by
  cases hrequest : request c with
  | some r => exact h.make hrequest hadm hc
  | none =>
    cases c with
    | allocate | allocateAligned | cloneBuffer | mergeBuffers => cases hrequest
    | splitBuffer src pos raw =>
      rw [call_splitBuffer hrequest]
      exact h
    | returnBuffer i => exact h.returnBuffer i
    | moveConstruct i => exact h.moveConstruct i
    | moveAssign i j => exact h.moveAssign i j
    | appendBuffer i viewSize => exact h.modifyBuffer i fun b => b.sameBlock_putIn viewSize
    | prependBuffer i viewSize => exact h.modifyBuffer i fun b => b.sameBlock_putIn viewSize
    | resize i newSize => exact h.modifyBuffer i fun b => b.sameBlock_resized newSize
    | setMaxPoolSize maxSize => exact ⟨h.accounts, h.owned, h.handedOut, h.givenBack⟩

/-- The bytes in the buffers are no more than the pool of the factory. -/
theorem Tracked.capacities_le (h : m.Tracked) :
    m.capacities ≤ m.factory.pool.totalPoolBytes.toNat := by
  have hsizes := BlockPool.sum_size_le m.factory.pool.live
  rw [h.capacities_eq, h.accounts.total, BlockPool.sum_spot_held]
  omega

/-- **A buffer is within the limit of the pool that it is from.** -/
theorem Tracked.withinLimit (h : m.Tracked) (hadm : m.Admissible granule c) (hc : m.CountsUp c) :
    m.WithinLimit m.factory.pool.maxPoolSize c := by
  intro b hb hpos
  cases hrequest : request c with
  | none =>
    rw [call_fst_of_request_eq_none hrequest] at hb
    cases hb
  | some r =>
    obtain ⟨size, alignment, raw⟩ := r
    have hle := (h.call hadm hc).capacities_le
    by_cases hgranted : m.factory.pool.Grants size alignment ∧ alignedPointer raw alignment ≠ 0
    · obtain ⟨hgrants, hpointer⟩ := hgranted
      have hroom : ¬ m.factory.pool.maxPoolSize
          < m.factory.pool.totalPoolBytes + totalNeeded size alignment :=
        fun hexceeds => hgrants.2 ⟨hexceeds, hpos⟩
      have htotal : (m.call c).2.factory.pool.totalPoolBytes
          = m.factory.pool.totalPoolBytes + totalNeeded size alignment := by
        obtain ⟨b', -, -, -, hcall⟩ := call_of_granted hrequest hgrants hpointer
        rw [hcall, BlockPool.allocateBytesAligned_of_grants hgrants]
      rw [htotal] at hle
      exact hle.trans (UInt64.le_iff_toNat_le.mp (UInt64.not_lt.mp hroom))
    · rw [call_of_refused hrequest hgranted] at hb
      cases hb

/-- **The pool of the factory is coherent.** Through every run in which the requests that are
granted stay within `size_t`, its statistics are those of the buffers, moved or not, and every
buffer that is handed out is within its limit. -/
theorem factory_coherent (granule : ℕ) {calls : List BufferCall}
    (h : (machine granule).Along CountsUp {} calls) :
    (machine granule).Always (fun m => m.Coherent m.factory.pool.getStats) {} calls
      ∧ (machine granule).Along (fun m c => m.WithinLimit m.factory.pool.maxPoolSize c) {}
        calls := by
  have hkeep : ∀ (m : DefaultBufferManager) c r, m.Tracked → m.CountsUp c →
      (machine granule).step m c = some r → r.1.Tracked := by
    intro m c r hm hc hr
    obtain ⟨hadm, hnext⟩ := machine_step hr
    rw [hnext]
    exact hm.call hadm hc
  refine ⟨Machine.always_of_along (fun _ hm => Tracked.coherent hm) hkeep tracked_new h,
    Machine.along_of_along hkeep (fun m c r hm hc hr => ?_) tracked_new h⟩
  exact hm.withinLimit (machine_step hr).1 hc

end DefaultBufferManager
