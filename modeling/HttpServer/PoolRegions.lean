import HttpServer.PoolAccounts
import HttpServer.PoolReturns

/-!
# The regions of the memory pool

What `AllocateBytesAligned` hands out lies in a block of `operator new`: the pointer is rounded up
behind the beginning of the block, with room for the header below it and for the user above. The
block is larger than both together by the alignment, and that is what the rounding may take. So the
regions that are written, each a header and the bytes of its user behind it, lie in blocks that do
not overlap.

`regions_of_run` says so for every run of the pool on a heap of any granule, with any limit, as long
as no request leaves `size_t`.
-/

namespace BlockPool

open DefaultMemoryPool (totalNeeded alignedPointer footprint toNat_totalNeeded)
open HeapTrace (Apart)

variable {p : BlockPool} {granule : ℕ} {size alignment raw : UInt64}

/-! ## What a caller gets -/

/-- What a request asks for, and what `operator new` returns for it. -/
def request : PoolCall → Option (UInt64 × UInt64 × UInt64)
  | .allocateBytes size raw => some (size, alignofMaxAlign, raw)
  | .allocateBytesAligned size alignment raw => some (size, alignment, raw)
  | _ => none

/-- The pointer that a call returns. -/
def pointer (p : BlockPool) : PoolCall → UInt64
  | .allocateBytes size raw => (p.allocateBytes size raw).1
  | .allocateBytesAligned size alignment raw => (p.allocateBytesAligned size alignment raw).1
  | _ => 0

/-- The block behind a pointer that is returned for a request. -/
def blockOf (size alignment raw : UInt64) : PoolBlock where
  size := size
  inUse := true
  alignment := alignment
  raw := raw
  addr := alignedPointer raw alignment - sizeofBlockHeader

/-- A request for a power of two that does not leave `size_t`. -/
def WithinSizeT (c : PoolCall) : Prop :=
  ∀ size alignment raw, request c = some (size, alignment, raw) →
    IsAlignment alignment ∧ footprint size alignment < 2 ^ 64

/-- The header of a block and the bytes of its user: where they begin and how many they are. -/
def region (b : PoolBlock) : ℕ × ℕ := (b.addr.toNat, 24 + b.size.toNat)

/-- **The regions of a pool are sound.** Each pointer in use is a multiple of its alignment, its
header is just below it and both lie in the block, and no two regions overlap, those of the free
blocks included. -/
structure RegionsSound (p : BlockPool) : Prop where
  aligned : ∀ e ∈ p.allocations, e.2.alignment.toNat ∣ e.1.toNat
  header : ∀ e ∈ p.allocations, e.2.addr.toNat + 24 = e.1.toNat ∧ e.2.raw.toNat ≤ e.2.addr.toNat
  user : ∀ e ∈ p.allocations,
    e.1.toNat + e.2.size.toNat ≤ e.2.raw.toNat + (bytes e.2).toNat
  apart : p.held.Pairwise fun b c => Apart (region b) (region c)

/-! ## The pointer into a block -/

/-- **Rounding up** gives a multiple of the alignment, behind the header, and takes less than the
alignment. -/
theorem alignedPointer_spec (raw : UInt64) {k : ℕ} (hk : alignment.toNat = 2 ^ k)
    (hroom : raw.toNat + 24 + 2 ^ k ≤ 2 ^ 64) :
    2 ^ k ∣ (alignedPointer raw alignment).toNat
      ∧ raw.toNat + 24 ≤ (alignedPointer raw alignment).toNat
      ∧ (alignedPointer raw alignment).toNat < raw.toNat + 24 + 2 ^ k := by
  have hpos : 0 < 2 ^ k := Nat.two_pow_pos k
  have hpointer : (alignedPointer raw alignment).toNat = _ := toNat_alignedPointer hk
  rw [Nat.mod_eq_of_lt (by omega)] at hpointer
  have hlow := Nat.mod_lt (raw.toNat + 24 + 2 ^ k - 1) hpos
  refine ⟨?_, by omega, by omega⟩
  rw [hpointer]
  exact Nat.dvd_sub_mod _

/-- The region of a block lies in it. -/
def Within (b : PoolBlock) : Prop :=
  b.raw.toNat ≤ b.addr.toNat
    ∧ b.addr.toNat + (24 + b.size.toNat) ≤ b.raw.toNat + footprint b.size b.alignment

/-- **The block behind a pointer**: where its header is, and that its region lies in it. -/
theorem blockOf_spec (hal : IsAlignment alignment)
    (hroom : raw.toNat + footprint size alignment ≤ 2 ^ 64) :
    alignment.toNat ∣ (alignedPointer raw alignment).toNat
      ∧ (blockOf size alignment raw).addr.toNat + 24 = (alignedPointer raw alignment).toNat
      ∧ Within (blockOf size alignment raw) := by
  obtain ⟨k, -, hk⟩ := hal
  have hfoot : footprint size alignment = size.toNat + 2 ^ k + 24 := by rw [footprint, hk]
  obtain ⟨hdvd, hlow, hhigh⟩ := alignedPointer_spec raw hk (by omega)
  have haddr : (blockOf size alignment raw).addr.toNat
      = (alignedPointer raw alignment).toNat - 24 := by
    have hheader : sizeofBlockHeader.toNat = 24 := rfl
    rw [blockOf, UInt64.toNat_sub_of_le _ _ (UInt64.le_iff_toNat_le.mpr (by omega)), hheader]
  refine ⟨hk ▸ hdvd, by omega, ?_, ?_⟩
  · rw [haddr]
    show raw.toNat ≤ _
    omega
  · show _ + (24 + size.toNat) ≤ raw.toNat + footprint size alignment
    omega

/-- What lies in blocks that are apart is apart. -/
theorem apart_region {b c : PoolBlock} (hb : Within b) (hc : Within c)
    (h : Apart (spot b) (spot c)) : Apart (region b) (region c) := by
  obtain ⟨hblow, hbhigh⟩ := hb
  obtain ⟨hclow, hchigh⟩ := hc
  unfold Apart spot at h
  unfold Apart region
  dsimp only at h ⊢
  omega

/-! ## The invariant -/

/-- **What every call keeps.** -/
structure Laid (p : BlockPool) : Prop where
  packed : Packed (p.held.map spot)
  within : ∀ b ∈ p.held, Within b
  pointers : ∀ e ∈ p.allocations,
    e.2.alignment.toNat ∣ e.1.toNat ∧ e.2.addr.toNat + 24 = e.1.toNat

theorem laid_new (maxPoolSize : UInt64) : Laid { maxPoolSize } where
  packed := ⟨fun _ hb => (by cases hb), List.Pairwise.nil⟩
  within := fun _ hb => (by cases hb)
  pointers := fun _ he => (by cases he)

/-- A block in use is held. -/
theorem mem_held {e : UInt64 × PoolBlock} (he : e ∈ p.allocations) : e.2 ∈ p.held :=
  List.mem_append_left _ (List.mem_map_of_mem he)

theorem Laid.regionsSound (h : p.Laid) : p.RegionsSound where
  aligned e he := (h.pointers e he).1
  header e he := ⟨(h.pointers e he).2, (h.within _ (mem_held he)).1⟩
  user e he := by
    have hplace := place_eq_spot (h.packed.bounds _ (List.mem_map_of_mem (mem_held he)))
    have hbytes : (bytes e.2).toNat = footprint e.2.size e.2.alignment :=
      congrArg Prod.snd hplace
    have hpointer := (h.pointers e he).2
    have hhigh := (h.within _ (mem_held he)).2
    omega
  apart := by
    refine List.Pairwise.imp_of_mem (fun hb hc => apart_region (h.within _ hb) (h.within _ hc)) ?_
    exact List.pairwise_map.mp h.packed.apart

/-- Some of the blocks, up to their order. -/
theorem Packed.subperm {spots spots' : List (ℕ × ℕ)} (h : Packed spots)
    (hsub : spots'.Subperm spots) : Packed spots' := by
  obtain ⟨l, hperm, hl⟩ := hsub
  exact (h.sublist hl).perm hperm.symm

/-! ## The calls -/

/-- **A request that is granted.** -/
theorem Laid.grant (h : p.Laid) (hal : IsAlignment alignment)
    (hfoot : footprint size alignment < 2 ^ 64) (hgrants : p.Grants size alignment)
    (hreturn : p.MayReturn granule (totalNeeded size alignment) raw) :
    (p.allocateBytesAligned size alignment raw).2.Laid := by
  have hnew := h.packed.cons_of_mayReturn hreturn
  rw [toNat_totalNeeded hfoot] at hnew
  obtain ⟨hdvd, haddr, hwithin⟩ := blockOf_spec hal (hnew.bounds _ List.mem_cons_self).2
  rw [allocateBytesAligned_of_grants hgrants]
  have hheld : ((p.allocations.filter fun e => e.1 ≠ alignedPointer raw alignment).map Prod.snd
      ++ p.freeList).Sublist p.held :=
    (List.filter_sublist.map Prod.snd).append_right _
  refine ⟨hnew.sublist ((hheld.map spot).cons_cons _), ?_, ?_⟩
  · exact List.forall_mem_cons.mpr ⟨hwithin, fun b hb => h.within b (hheld.subset hb)⟩
  · exact List.forall_mem_cons.mpr
      ⟨⟨hdvd, haddr⟩, fun e he => h.pointers e (List.mem_of_mem_filter he)⟩

/-- A block that is returned. -/
theorem Laid.deallocateBytes (h : p.Laid) (ptr : UInt64) : (p.deallocateBytes ptr).Laid := by
  unfold BlockPool.deallocateBytes
  split
  · exact h
  · split
    · exact h
    · rename_i key header hfind
      have hsub := subperm_map Prod.snd (subperm_of_find? hfind)
      have hspots : (((p.allocations.filter fun e => e.1 ≠ ptr).map Prod.snd
          ++ { header with inUse := false } :: p.freeList).map spot).Subperm
            (p.held.map spot) := by
        rw [held, List.map_append, List.map_append, List.map_cons]
        refine List.perm_middle.subperm.trans ?_
        exact (List.subperm_append_right _).mpr (subperm_map spot hsub)
      have hmem : (key, header) ∈ p.allocations := List.mem_of_find?_eq_some hfind
      refine ⟨h.packed.subperm hspots, fun b hb => ?_,
        fun e he => h.pointers e (List.mem_of_mem_filter he)⟩
      rcases List.mem_append.mp hb with hb | hb
      · exact h.within b (List.mem_append_left _
          ((List.filter_sublist.map Prod.snd).subset hb))
      · rcases List.mem_cons.mp hb with rfl | hb
        · exact h.within header (mem_held hmem)
        · exact h.within b (List.mem_append_right _ hb)

/-- A block that is made in advance is filled by its header and its bytes. -/
theorem Laid.preAllocateBlock (h : p.Laid) (hsize : size.toNat ≤ 1024)
    (hreturn : p.MayReturn granule (size + sizeofBlockHeader) raw) :
    (p.preAllocateBlock size raw).Laid := by
  have hnew := h.packed.cons_of_mayReturn hreturn
  rw [toNat_add_header hsize] at hnew
  refine ⟨hnew.perm ?_, fun b hb => ?_, h.pointers⟩
  · show ((p.live ++ _ :: p.freeList).map spot).Perm _
    rw [held, List.map_append, List.map_append, List.map_cons]
    exact List.perm_middle
  · rcases List.mem_cons.mp (List.perm_middle.mem_iff.mp hb) with rfl | hb
    · refine ⟨le_refl _, ?_⟩
      show raw.toNat + (24 + size.toNat) ≤ raw.toNat + (size.toNat + 0 + 24)
      omega
    · exact h.within b hb

theorem Laid.preAllocate {blocks : List (UInt64 × UInt64)}
    (hsizes : ∀ b ∈ blocks, b.1.toNat ≤ 1024) (h : p.Laid)
    (hreturn : p.MayReturnAll granule blocks) : (p.preAllocate blocks).Laid := by
  induction blocks generalizing p with
  | nil => exact h
  | cons b blocks ih =>
    obtain ⟨hsize, hsizes⟩ := List.forall_mem_cons.mp hsizes
    exact ih hsizes (h.preAllocateBlock hsize hreturn.1) hreturn.2

/-- Giving the free blocks back leaves those in use where they are. -/
theorem Laid.of_live (h : p.Laid) {p' : BlockPool} (hallocations : p'.allocations = p.allocations)
    (hfree : p'.freeList.Sublist p.freeList) : p'.Laid := by
  have hheld : p'.held.Sublist p.held := by
    rw [held, held, live, live, hallocations]
    exact hfree.append_left _
  exact ⟨h.packed.sublist (hheld.map spot), fun b hb => h.within b (hheld.subset hb),
    by rw [hallocations]; exact h.pointers⟩

theorem Laid.setPreAllocation (h : p.Laid) {enable : Bool} {raws : List UInt64}
    (hadm : p.Admissible granule (.setPreAllocation enable raws)) :
    (p.setPreAllocation enable raws).Laid := by
  unfold BlockPool.setPreAllocation
  split
  · rename_i henable
    obtain ⟨henable, hno⟩ := Bool.and_eq_true_iff.mp henable
    obtain ⟨-, hreturn⟩ := hadm henable (by simpa using hno)
    have hblocks : (p.preAllocate (preAllocatedSizes.zip raws)).Laid :=
      h.preAllocate (fun b hb => preAllocatedSizes_le _ (List.of_mem_zip hb).1) hreturn
    exact hblocks.of_live rfl (List.Sublist.refl _)
  · split
    · exact h.of_live rfl (List.nil_sublist _)
    · exact h

theorem Laid.request (h : p.Laid) (hal : IsAlignment alignment)
    (hfoot : footprint size alignment < 2 ^ 64)
    (hreturn : p.Grants size alignment → p.MayReturn granule (totalNeeded size alignment) raw) :
    (p.allocateBytesAligned size alignment raw).2.Laid := by
  by_cases hgrants : p.Grants size alignment
  · exact h.grant hal hfoot hgrants (hreturn hgrants)
  · rw [allocateBytesAligned_of_not_grants hgrants]
    exact h

/-- **Every call keeps the regions.** -/
theorem Laid.call (h : p.Laid) {c : PoolCall} (hadm : p.Admissible granule c)
    (hc : WithinSizeT c) : (p.call c).Laid := by
  cases c with
  | allocateBytes size raw =>
    obtain ⟨hal, hfoot⟩ := hc size _ raw rfl
    exact h.request hal hfoot hadm
  | allocateBytesAligned size alignment raw =>
    obtain ⟨hal, hfoot⟩ := hc size alignment raw rfl
    exact h.request hal hfoot hadm.2
  | deallocateBytes ptr => exact h.deallocateBytes ptr
  | setPreAllocation enable raws => exact h.setPreAllocation hadm
  | setMaxPoolSize maxSize => exact h.of_live rfl (List.Sublist.refl _)
  | clearPool => exact h.of_live rfl (List.nil_sublist _)

/-- **A request is refused**, with nothing changed, or its pointer is one in use, and the block
behind it is the one that `operator new` has returned. -/
theorem pointer_cases {c : PoolCall} (hc : request c = some (size, alignment, raw)) :
    (p.pointer c = 0 ∧ p.call c = p)
      ∨ (p.pointer c, blockOf size alignment raw) ∈ (p.call c).allocations := by
  have hcases : ((p.allocateBytesAligned size alignment raw).1 = 0
        ∧ (p.allocateBytesAligned size alignment raw).2 = p)
      ∨ ((p.allocateBytesAligned size alignment raw).1, blockOf size alignment raw)
        ∈ (p.allocateBytesAligned size alignment raw).2.allocations := by
    by_cases hgrants : p.Grants size alignment
    · rw [allocateBytesAligned_of_grants hgrants]
      exact Or.inr List.mem_cons_self
    · rw [allocateBytesAligned_of_not_grants hgrants]
      exact Or.inl ⟨rfl, rfl⟩
  cases c with
  | allocateBytes _ _ | allocateBytesAligned _ _ _ =>
    cases hc
    exact hcases
  | _ => cases hc

/-! ## Runs -/

/-- **Regions are aligned, contained and disjoint.** In every run of a new pool, with any limit and
on a heap with any granule, in which the requests are for powers of two and do not leave `size_t`,
the regions are sound in the state reached. And each further request is refused, with nothing
changed, or returns a pointer in use, whose block is the one that `operator new` has returned for
it, in a pool whose regions are sound. -/
theorem regions_of_run {maxPoolSize : UInt64} {calls : List PoolCall}
    {os : List (List (HeapTrace.HeapEvent UInt64))} (hcalls : ∀ c ∈ calls, WithinSizeT c)
    (hrun : (machine granule).run { maxPoolSize } calls = some (p, os)) :
    p.RegionsSound
      ∧ ∀ c r size alignment raw, WithinSizeT c → request c = some (size, alignment, raw) →
        (machine granule).step p c = some r →
          (p.pointer c = 0 ∧ r.1 = p)
            ∨ (p.pointer c, blockOf size alignment raw) ∈ r.1.allocations ∧ r.1.RegionsSound := by
  have hstep : ∀ p c r, Laid p → WithinSizeT c → (machine granule).step p c = some r →
      Laid r.1 := by
    intro p c r h hc hr
    obtain ⟨hadm, rfl⟩ := machine_step hr
    exact h.call hadm hc
  have hlaid : p.Laid :=
    (Machine.always_of_along (P := Laid) (fun _ h => h) hstep (laid_new maxPoolSize)
      (Machine.along_of_forall _ _ hcalls)).of_run hrun
  refine ⟨hlaid.regionsSound, fun c r size alignment raw hc hrequest hr => ?_⟩
  have hsound := (hstep p c r hlaid hc hr).regionsSound
  obtain ⟨-, rfl⟩ := machine_step hr
  exact (pointer_cases hrequest).imp_right fun hmem => ⟨hmem, hsound⟩

/-- A request with an alignment of 64 and one of the usual alignment, of which the first is
returned. -/
theorem regions_of_run_two :
    ∃ p os, (machine 16).run { maxPoolSize := 1000 } [.allocateBytesAligned 10 64 0x1010,
        .allocateBytes 40 0x2000, .deallocateBytes 0x1040] = some (p, os)
      ∧ p.RegionsSound
      ∧ ∀ c r size alignment raw, WithinSizeT c → request c = some (size, alignment, raw) →
        (machine 16).step p c = some r →
          (p.pointer c = 0 ∧ r.1 = p)
            ∨ (p.pointer c, blockOf size alignment raw) ∈ r.1.allocations ∧ r.1.RegionsSound := by
  have hsome : ((machine 16).run { maxPoolSize := 1000 } [.allocateBytesAligned 10 64 0x1010,
      .allocateBytes 40 0x2000, .deallocateBytes 0x1040]).isSome = true := by
    decide +kernel
  obtain ⟨⟨p, os⟩, hrun⟩ := Option.isSome_iff_exists.mp hsome
  refine ⟨p, os, hrun, regions_of_run (fun c hc => ?_) hrun⟩
  rcases List.mem_cons.mp hc with rfl | hc
  · intro size alignment raw h
    cases h
    exact ⟨⟨6, by decide, rfl⟩, by decide⟩
  · rcases List.mem_cons.mp hc with rfl | hc
    · intro size alignment raw h
      cases h
      exact ⟨⟨4, by decide, rfl⟩, by decide⟩
    · rw [List.mem_singleton.mp hc]
      intro size alignment raw h
      cases h

end BlockPool
