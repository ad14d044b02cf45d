import HttpServer.PoolBlocks
import Mathlib.Algebra.Order.BigOperators.Group.List

/-!
# The accounts of the memory pool

`GetStats` is meant to say what the pool holds: the bytes in use, how many blocks were handed out
and returned, the size of the pool. Three of its calls keep these accounts. `ClearPool` sets all of
them to zero, and `SetPreAllocation(false)` the size of the pool, as if nothing were in use.

`exact_iff_along` says that there is nothing else that spoils them: in every run they are exact
throughout if and only if nothing is in use when they are set to zero, and no request that is
granted leaves `size_t`, with its own footprint or as one too many to count. That the bytes of all
blocks together do not leave it needs no condition: the blocks do not overlap.
-/

namespace BlockPool

open DefaultMemoryPool (totalNeeded alignedPointer footprint toNat_totalNeeded toNat_add_of_lt)
open HeapTrace (Apart)

variable {p : BlockPool} {granule : ℕ} {size alignment raw : UInt64}

/-! ## The accounts -/

/-- Where a block is, and its footprint. -/
def spot (b : PoolBlock) : ℕ × ℕ := (b.raw.toNat, footprint b.size b.alignment)

/-- **The accounts are exact.** The bytes in use are those of the blocks in use, so that returning
one does not wrap, the counts differ by the number of these blocks, and the size of the pool is
what all the blocks take that it holds. -/
def Exact (p : BlockPool) : Prop :=
  p.usedBytes.toNat = (p.live.map fun b => b.size.toNat).sum
    ∧ (∀ b ∈ p.live, b.size ≤ p.usedBytes)
    ∧ p.deallocationCount ≤ p.allocationCount
    ∧ p.allocationCount.toNat - p.deallocationCount.toNat = p.live.length
    ∧ p.totalPoolBytes.toNat = (p.held.map fun b => footprint b.size b.alignment).sum

instance : DecidablePred Exact := fun _ => inferInstanceAs (Decidable (_ ∧ _))

/-- A request stays within `size_t` if it is granted. -/
def CountsUp (p : BlockPool) (size alignment : UInt64) : Prop :=
  p.Grants size alignment →
    footprint size alignment < 2 ^ 64 ∧ p.allocationCount.toNat + 1 < 2 ^ 64

/-- **Nothing is in use that is no longer counted**, and nothing is counted beyond `size_t`. -/
def WithinAccounts (p : BlockPool) : PoolCall → Prop
  | .allocateBytes size _ => p.CountsUp size alignofMaxAlign
  | .allocateBytesAligned size alignment _ => p.CountsUp size alignment
  | .setPreAllocation enable _ => enable = false → p.preAllocated = true → p.allocations = []
  | .clearPool => p.allocations = []
  | _ => True

/-! ## Blocks that do not overlap -/

/-- These blocks are in memory, apart from each other. -/
structure Packed (spots : List (ℕ × ℕ)) : Prop where
  bounds : ∀ b ∈ spots, 0 < b.1 ∧ b.1 + b.2 ≤ 2 ^ 64
  apart : spots.Pairwise Apart

/-- All blocks together are less than the memory. -/
theorem Packed.sum_lt {spots : List (ℕ × ℕ)} (h : Packed spots) :
    (spots.map Prod.snd).sum < 2 ^ 64 := by
  have hle := HeapTrace.sum_le_of_apart h.apart h.bounds
  omega

theorem Packed.perm {spots spots' : List (ℕ × ℕ)} (h : Packed spots) (hperm : spots'.Perm spots) :
    Packed spots' where
  bounds := fun b hb => h.bounds b (hperm.mem_iff.mp hb)
  apart := (hperm.pairwise_iff fun {_ _} hbc => hbc.symm).mpr h.apart

theorem Packed.sublist {spots spots' : List (ℕ × ℕ)} (h : Packed spots)
    (hsub : spots'.Sublist spots) : Packed spots' :=
  ⟨fun b hb => h.bounds b (hsub.subset hb), h.apart.sublist hsub⟩

/-- What is in memory is where it takes its bytes from the heap. -/
theorem place_eq_spot {b : PoolBlock} (h : 0 < (spot b).1 ∧ (spot b).1 + (spot b).2 ≤ 2 ^ 64) :
    place b = spot b := by
  have hfoot : footprint b.size b.alignment < 2 ^ 64 := by
    have hpos : 0 < b.raw.toNat := h.1
    have hle : b.raw.toNat + footprint b.size b.alignment ≤ 2 ^ 64 := h.2
    omega
  rw [place, bytes, toNat_totalNeeded hfoot, spot]

/-- **A block that the heap returns is apart from those that are held.** -/
theorem Packed.cons_of_mayReturn (h : Packed (p.held.map spot)) {bytes : UInt64}
    (hreturn : p.MayReturn granule bytes raw) :
    Packed ((raw.toNat, bytes.toNat) :: p.held.map spot) := by
  obtain ⟨-, hpos, hroom, hapart⟩ := hreturn
  refine ⟨List.forall_mem_cons.mpr ⟨⟨hpos, hroom⟩, h.bounds⟩,
    List.pairwise_cons.mpr ⟨fun c hc => ?_, h.apart⟩⟩
  obtain ⟨b, hb, rfl⟩ := List.mem_map.mp hc
  rw [← place_eq_spot (h.bounds _ hc)]
  exact hapart b hb

/-! ## The invariant -/

/-- **What the calls keep**: the accounts as sums, and where the blocks and their pointers are. -/
structure Accounts (p : BlockPool) : Prop where
  used : p.usedBytes.toNat = (p.live.map fun b => b.size.toNat).sum
  counts : p.deallocationCount.toNat + p.live.length = p.allocationCount.toNat
  total : p.totalPoolBytes.toNat = ((p.held.map spot).map Prod.snd).sum
  packed : Packed (p.held.map spot)
  keys : (p.allocations.map Prod.fst).Nodup
  pointers : ∀ e ∈ p.allocations,
    e.1 = alignedPointer e.2.raw e.2.alignment ∧ e.2.size ≠ 0 ∧ e.2.alignment ≠ 0

theorem accounts_new : Accounts {} where
  used := rfl
  counts := rfl
  total := rfl
  packed := ⟨fun b hb => (by cases hb), List.Pairwise.nil⟩
  keys := List.nodup_nil
  pointers := fun e he => (by cases he)

theorem Accounts.exact (h : p.Accounts) : p.Exact := by
  have hcounts := h.counts
  refine ⟨h.used, fun b hb => ?_, ?_, by omega, ?_⟩
  · rw [UInt64.le_iff_toNat_le, h.used]
    exact List.le_sum_of_mem (List.mem_map_of_mem hb)
  · rw [UInt64.le_iff_toNat_le]
    omega
  · rw [h.total, List.map_map]
    rfl

/-- A pool that keeps its blocks and its counts keeps its accounts. -/
theorem Accounts.of_eq (h : p.Accounts) {p' : BlockPool} (hfree : p'.freeList = p.freeList)
    (hallocations : p'.allocations = p.allocations) (htotal : p'.totalPoolBytes = p.totalPoolBytes)
    (hused : p'.usedBytes = p.usedBytes) (hcount : p'.allocationCount = p.allocationCount)
    (hcount' : p'.deallocationCount = p.deallocationCount) : p'.Accounts := by
  have hlive : p'.live = p.live := congrArg (List.map Prod.snd) hallocations
  have hheld : p'.held = p.held := by rw [held, held, hlive, hfree]
  exact ⟨by rw [hused, hlive, h.used], by rw [hcount, hcount', hlive, h.counts],
    by rw [htotal, hheld, h.total], by rw [hheld]; exact h.packed,
    by rw [hallocations]; exact h.keys, by rw [hallocations]; exact h.pointers⟩

/-! ## Requests -/

/-- **The pointer into a new block is a new one.** -/
theorem Accounts.key_ne (h : p.Accounts) (hal : alignment ≠ 0) (hsize : size ≠ 0)
    (hnew : Packed ((raw.toNat, footprint size alignment) :: p.held.map spot))
    {e : UInt64 × PoolBlock} (he : e ∈ p.allocations) : e.1 ≠ alignedPointer raw alignment := by
  intro hkey
  obtain ⟨hpointer, hesize, healign⟩ := h.pointers e he
  have hspot : spot e.2 ∈ p.held.map spot :=
    List.mem_map_of_mem (List.mem_append_left _ (List.mem_map_of_mem he))
  have hnewroom := (hnew.bounds _ List.mem_cons_self).2
  have holdroom := (h.packed.bounds _ hspot).2
  have hapart := (List.pairwise_cons.mp hnew.apart).1 _ hspot
  obtain ⟨hlo, hhi⟩ := DefaultMemoryPool.alignedPointer_bounds hal hnewroom hsize
  obtain ⟨hlo', hhi'⟩ := DefaultMemoryPool.alignedPointer_bounds healign holdroom hesize
  rw [← hpointer, hkey] at hlo' hhi'
  unfold Apart spot at hapart
  dsimp only at hapart
  omega

/-- The blocks of other pointers are all blocks in use. -/
theorem Accounts.filter_alignedPointer (h : p.Accounts) (hal : alignment ≠ 0) (hsize : size ≠ 0)
    (hnew : Packed ((raw.toNat, footprint size alignment) :: p.held.map spot)) :
    (p.allocations.filter fun e => e.1 ≠ alignedPointer raw alignment) = p.allocations :=
  List.filter_eq_self.mpr fun _ he => decide_eq_true (h.key_ne hal hsize hnew he)

/-- The bytes in use are less than the footprints. -/
theorem sum_size_le (blocks : List PoolBlock) :
    (blocks.map fun b => b.size.toNat).sum ≤ ((blocks.map spot).map Prod.snd).sum := by
  rw [List.map_map]
  refine List.sum_le_sum fun b _ => ?_
  show b.size.toNat ≤ b.size.toNat + b.alignment.toNat + 24
  omega

theorem sum_spot_held : ((p.held.map spot).map Prod.snd).sum
    = ((p.live.map spot).map Prod.snd).sum + ((p.freeList.map spot).map Prod.snd).sum := by
  rw [held, List.map_append, List.map_append, List.sum_append]

/-- **A request that is granted.** -/
theorem Accounts.grant (h : p.Accounts) (hal : alignment ≠ 0) (hgrants : p.Grants size alignment)
    (hbound : footprint size alignment < 2 ^ 64 ∧ p.allocationCount.toNat + 1 < 2 ^ 64)
    (hreturn : p.MayReturn granule (totalNeeded size alignment) raw) :
    (p.allocateBytesAligned size alignment raw).2.Accounts := by
  obtain ⟨hfoot, hcount⟩ := hbound
  have hnew := h.packed.cons_of_mayReturn hreturn
  rw [toNat_totalNeeded hfoot] at hnew
  have hkeys := h.filter_alignedPointer hal hgrants.1 hnew
  -- all the footprints together stay within the memory
  have hsum := hnew.sum_lt
  rw [List.map_cons, List.sum_cons, sum_spot_held] at hsum
  have hsizes := sum_size_le p.live
  have hsize : size.toNat ≤ footprint size alignment := by
    unfold footprint
    omega
  rw [allocateBytesAligned_of_grants hgrants, hkeys]
  refine ⟨?_, ?_, ?_, hnew, ?_, ?_⟩
  · show (p.usedBytes + size).toNat = size.toNat + (p.live.map fun b => b.size.toNat).sum
    have hused := h.used
    rw [toNat_add_of_lt (by omega), h.used, Nat.add_comm]
  · show p.deallocationCount.toNat + (p.live.length + 1) = (p.allocationCount + 1).toNat
    rw [toNat_add_of_lt hcount, ← Nat.add_assoc, h.counts]
    rfl
  · show (p.totalPoolBytes + totalNeeded size alignment).toNat
      = footprint size alignment + ((p.held.map spot).map Prod.snd).sum
    have htotal := h.total
    have hneeded := toNat_totalNeeded hfoot
    rw [sum_spot_held] at htotal
    rw [toNat_add_of_lt (by omega), hneeded, h.total, Nat.add_comm]
  · exact List.nodup_cons.mpr ⟨fun hkey => by
      obtain ⟨e, he, hkey⟩ := List.mem_map.mp hkey
      exact h.key_ne hal hgrants.1 hnew he hkey, h.keys⟩
  · exact List.forall_mem_cons.mpr ⟨⟨rfl, hgrants.1, hal⟩, h.pointers⟩

theorem Accounts.request (h : p.Accounts) (hal : alignment ≠ 0) (hc : p.CountsUp size alignment)
    (hreturn : p.Grants size alignment → p.MayReturn granule (totalNeeded size alignment) raw) :
    (p.allocateBytesAligned size alignment raw).2.Accounts := by
  by_cases hgrants : p.Grants size alignment
  · exact h.grant hal hgrants (hc hgrants) (hreturn hgrants)
  · rw [allocateBytesAligned_of_not_grants hgrants]
    exact h

/-- A request that leaves `size_t` spoils the accounts. -/
theorem not_exact_of_not_countsUp (hc : ¬ p.CountsUp size alignment) :
    ¬ (p.allocateBytesAligned size alignment raw).2.Exact := by
  unfold CountsUp at hc
  push Not at hc
  obtain ⟨hgrants, hbound⟩ := hc
  rw [allocateBytesAligned_of_grants hgrants]
  rintro ⟨-, -, -, hlength, htotal⟩
  by_cases hfoot : footprint size alignment < 2 ^ 64
  · -- the count of the requests has gone round to zero
    have hcount := hbound hfoot
    have hzero : (p.allocationCount + 1).toNat = 0 := by
      have hlt := p.allocationCount.toNat_lt
      rw [UInt64.toNat_add]
      show (p.allocationCount.toNat + 1) % 2 ^ 64 = 0
      omega
    have hlive : (p.allocationCount + 1).toNat - p.deallocationCount.toNat
      = _ + 1 := hlength
    rw [hzero] at hlive
    omega
  · -- the size of the pool is a number of `size_t`, and the footprint is none
    have hlt := (p.totalPoolBytes + totalNeeded size alignment).toNat_lt
    have hsum : (p.totalPoolBytes + totalNeeded size alignment).toNat
      = footprint size alignment + _ := htotal
    omega

/-! ## Blocks that come back -/

/-- An entry of a table with different keys, and the others. -/
theorem perm_cons_filter_key {α β : Type*} [DecidableEq α] {l : List (α × β)} {e : α × β}
    (hkeys : (l.map Prod.fst).Nodup) (he : e ∈ l) :
    l.Perm (e :: l.filter fun e' => e'.1 ≠ e.1) := by
  induction l with
  | nil => cases he
  | cons a l ih =>
    obtain ⟨ha, hl⟩ := List.nodup_cons.mp hkeys
    rcases List.mem_cons.mp he with rfl | he
    · rw [List.filter_cons_of_neg (by simp), List.filter_eq_self.mpr fun e' he' => ?_]
      exact decide_eq_true fun hkey => ha (hkey ▸ List.mem_map_of_mem he')
    · have hne : a.1 ≠ e.1 := fun hkey => ha (hkey ▸ List.mem_map_of_mem he)
      rw [List.filter_cons_of_pos (by simpa using hne)]
      exact ((ih hl he).cons a).trans (List.Perm.swap e a _)

/-- The blocks in use are the one that is returned, and the others. -/
theorem Accounts.live_perm (h : p.Accounts) {key : UInt64} {header : PoolBlock}
    (he : (key, header) ∈ p.allocations) :
    p.live.Perm (header :: (p.allocations.filter fun e => e.1 ≠ key).map Prod.snd) :=
  (perm_cons_filter_key h.keys he).map Prod.snd

/-- The blocks that are returned are no more than those that were handed out. -/
theorem Accounts.toNat_deallocationCount_add_one (h : p.Accounts) (hlive : 0 < p.live.length) :
    (p.deallocationCount + 1).toNat = p.deallocationCount.toNat + 1 := by
  have hcounts := h.counts
  have hlt := p.allocationCount.toNat_lt
  have hone : (1 : UInt64).toNat = 1 := rfl
  rw [toNat_add_of_lt (by omega), hone]

/-- **A block that is in use is returned.** -/
theorem Accounts.release (h : p.Accounts) {key : UInt64} {header : PoolBlock}
    (he : (key, header) ∈ p.allocations) :
    ({ p with
      freeList := { header with inUse := false } :: p.freeList
      allocations := p.allocations.filter fun e => e.1 ≠ key
      usedBytes := p.usedBytes - header.size
      deallocationCount := p.deallocationCount + 1 } : BlockPool).Accounts := by
  have hlive := h.live_perm he
  have hlength := hlive.length_eq
  rw [List.length_cons] at hlength
  have hused := h.used
  rw [(hlive.map fun b => b.size.toNat).sum_eq, List.map_cons, List.sum_cons] at hused
  have hspots : (((p.allocations.filter fun e => e.1 ≠ key).map Prod.snd
      ++ { header with inUse := false } :: p.freeList).map spot).Perm (p.held.map spot) := by
    rw [held, List.map_append, List.map_append, List.map_cons]
    refine List.perm_middle.trans ?_
    exact (hlive.map spot).symm.append_right (p.freeList.map spot)
  refine ⟨?_, ?_, ?_, h.packed.perm hspots, ?_, ?_⟩
  · show (p.usedBytes - header.size).toNat
      = (((p.allocations.filter fun e => e.1 ≠ key).map Prod.snd).map fun b => b.size.toNat).sum
    rw [UInt64.toNat_sub_of_le _ _ (UInt64.le_iff_toNat_le.mpr (by omega)), hused,
      Nat.add_sub_cancel_left]
  · show (p.deallocationCount + 1).toNat
      + ((p.allocations.filter fun e => e.1 ≠ key).map Prod.snd).length = p.allocationCount.toNat
    have hcounts := h.counts
    rw [h.toNat_deallocationCount_add_one (by omega)]
    omega
  · exact h.total.trans (hspots.map Prod.snd).sum_eq.symm
  · exact h.keys.sublist (List.filter_sublist.map Prod.fst)
  · exact fun e he' => h.pointers e (List.mem_of_mem_filter he')

/-- What is left in use, and the counts, when a block in use is returned. -/
theorem deallocateBytes_of_mem {ptr : UInt64} {header : PoolBlock}
    (he : (ptr, header) ∈ p.allocations) (hptr : ptr ≠ 0) :
    (p.deallocateBytes ptr).allocations = (p.allocations.filter fun e => e.1 ≠ ptr)
      ∧ (p.deallocateBytes ptr).allocationCount = p.allocationCount
      ∧ (p.deallocateBytes ptr).deallocationCount = p.deallocationCount + 1 := by
  unfold BlockPool.deallocateBytes
  rw [if_neg hptr]
  cases hfind : p.allocations.find? fun e => e.1 = ptr with
  | none => exact absurd (decide_eq_true rfl) (List.find?_eq_none.mp hfind _ he)
  | some e => exact ⟨rfl, rfl, rfl⟩

/-- **A block that is returned.** -/
theorem Accounts.deallocateBytes (h : p.Accounts) (ptr : UInt64) :
    (p.deallocateBytes ptr).Accounts := by
  unfold BlockPool.deallocateBytes
  split
  · exact h
  · split
    · exact h
    · rename_i key header hfind
      have hkey := List.find?_some hfind
      rw [decide_eq_true_eq] at hkey
      dsimp only at hkey
      subst hkey
      have hmem : (key, header) ∈ p.allocations := List.mem_of_find?_eq_some hfind
      exact h.release hmem

/-! ## Blocks that are made in advance -/

theorem toNat_add_header (hsize : size.toNat ≤ 1024) :
    (size + sizeofBlockHeader).toNat = footprint size 0 := by
  have hheader : sizeofBlockHeader.toNat = 24 := rfl
  rw [toNat_add_of_lt (by omega)]
  rfl

theorem Accounts.preAllocateBlock (h : p.Accounts) (hsize : size.toNat ≤ 1024)
    (hreturn : p.MayReturn granule (size + sizeofBlockHeader) raw) :
    (p.preAllocateBlock size raw).Accounts := by
  have hnew := h.packed.cons_of_mayReturn hreturn
  rw [toNat_add_header hsize] at hnew
  have hspots : ((p.preAllocateBlock size raw).held.map spot).Perm
      ((raw.toNat, footprint size 0) :: p.held.map spot) := by
    show ((p.live ++ _ :: p.freeList).map spot).Perm _
    rw [held, List.map_append, List.map_append, List.map_cons]
    exact List.perm_middle
  have hsum := hnew.sum_lt
  rw [List.map_cons, List.sum_cons] at hsum
  refine ⟨h.used, h.counts, ?_, hnew.perm hspots, h.keys, h.pointers⟩
  rw [(hspots.map Prod.snd).sum_eq, List.map_cons, List.sum_cons]
  show (p.totalPoolBytes + (size + sizeofBlockHeader)).toNat = _
  have htotal := h.total
  have hblock := toNat_add_header hsize
  rw [toNat_add_of_lt (by omega), hblock, h.total, Nat.add_comm]

theorem Accounts.preAllocate {blocks : List (UInt64 × UInt64)}
    (hsizes : ∀ b ∈ blocks, b.1.toNat ≤ 1024) (h : p.Accounts)
    (hreturn : p.MayReturnAll granule blocks) : (p.preAllocate blocks).Accounts := by
  induction blocks generalizing p with
  | nil => exact h
  | cons b blocks ih =>
    obtain ⟨hsize, hsizes⟩ := List.forall_mem_cons.mp hsizes
    obtain ⟨hfirst, hrest⟩ := hreturn
    exact ih hsizes (h.preAllocateBlock hsize hfirst) hrest

theorem preAllocatedSizes_le : ∀ size ∈ preAllocatedSizes, size.toNat ≤ 1024 := by
  -- through the list, not through all the numbers
  have hall : preAllocatedSizes.all (fun size => decide (size.toNat ≤ 1024)) = true := by decide
  exact fun size hsize => of_decide_eq_true (List.all_eq_true.mp hall size hsize)

/-- Making blocks in advance, or giving the free ones back while nothing is in use. -/
theorem Accounts.setPreAllocation (h : p.Accounts) {enable : Bool} {raws : List UInt64}
    (hadm : p.Admissible granule (.setPreAllocation enable raws))
    (hc : p.WithinAccounts (.setPreAllocation enable raws)) :
    (p.setPreAllocation enable raws).Accounts := by
  unfold BlockPool.setPreAllocation
  split
  · rename_i henable
    obtain ⟨henable, hno⟩ := Bool.and_eq_true_iff.mp henable
    obtain ⟨-, hreturn⟩ := hadm henable (by simpa using hno)
    have hblocks : (p.preAllocate (preAllocatedSizes.zip raws)).Accounts :=
      h.preAllocate (fun b hb => preAllocatedSizes_le _ (List.of_mem_zip hb).1) hreturn
    exact hblocks.of_eq rfl rfl rfl rfl rfl rfl
  · split
    · rename_i hdisable
      obtain ⟨hdisable, hyes⟩ := Bool.and_eq_true_iff.mp hdisable
      have hnone : p.allocations = [] := hc (by simpa using hdisable) hyes
      have hlive : p.live = [] := congrArg (List.map Prod.snd) hnone
      have hheld : ({ p with freeList := [], totalPoolBytes := 0, preAllocated := false } :
          BlockPool).held = [] := by
        show p.live ++ [] = []
        rw [hlive, List.append_nil]
      refine ⟨h.used, h.counts, ?_, ?_, h.keys, h.pointers⟩
      · rw [hheld]
        rfl
      · rw [hheld]
        exact accounts_new.packed
    · exact h

/-- Clearing a pool while nothing is in use. -/
theorem Accounts.clearPool (hnone : p.allocations = []) : p.clearPool.Accounts := by
  have hlive : p.clearPool.live = [] := congrArg (List.map Prod.snd) hnone
  have hheld : p.clearPool.held = [] := by
    show p.clearPool.live ++ [] = []
    rw [hlive, List.append_nil]
  refine ⟨?_, ?_, ?_, ?_, ?_, ?_⟩
  · rw [hlive]
    rfl
  · rw [hlive]
    rfl
  · rw [hheld]
    rfl
  · rw [hheld]
    exact accounts_new.packed
  · show (p.allocations.map Prod.fst).Nodup
    rw [hnone]
    exact List.nodup_nil
  · intro e he
    rw [show p.clearPool.allocations = [] from hnone] at he
    cases he

/-! ## Runs -/

/-- **A call keeps the accounts**, if it stays within them. -/
theorem Accounts.call (h : p.Accounts) {c : PoolCall} (hadm : p.Admissible granule c)
    (hc : p.WithinAccounts c) : (p.call c).Accounts := by
  cases c with
  | allocateBytes size raw => exact h.request (by decide) hc hadm
  | allocateBytesAligned size alignment raw => exact h.request hadm.1 hc hadm.2
  | deallocateBytes ptr => exact h.deallocateBytes ptr
  | setPreAllocation enable raws => exact h.setPreAllocation hadm hc
  | setMaxPoolSize maxSize => exact h.of_eq rfl rfl rfl rfl rfl rfl
  | clearPool => exact Accounts.clearPool hc

/-- The blocks in use take something. -/
theorem Accounts.sums_pos (h : p.Accounts) (hlive : p.allocations ≠ []) :
    0 < (p.live.map fun b => b.size.toNat).sum
      ∧ 0 < (p.live.map fun b => footprint b.size b.alignment).sum := by
  obtain ⟨e, he⟩ := List.exists_mem_of_ne_nil _ hlive
  have hin : e.2 ∈ p.live := List.mem_map_of_mem he
  have hsize : e.2.size.toNat ≠ 0 := fun h0 => (h.pointers e he).2.1 (UInt64.toNat_inj.mp h0)
  have hle := List.le_sum_of_mem (List.mem_map_of_mem (f := fun b => b.size.toNat) hin)
  have hle' := List.le_sum_of_mem
    (List.mem_map_of_mem (f := fun b => footprint b.size b.alignment) hin)
  unfold footprint at hle' ⊢
  omega

/-- **A call that does not stay within the accounts spoils them.** -/
theorem Accounts.not_exact (h : p.Accounts) {c : PoolCall} (hc : ¬ p.WithinAccounts c) :
    ¬ (p.call c).Exact := by
  cases c with
  | allocateBytes size raw => exact not_exact_of_not_countsUp hc
  | allocateBytesAligned size alignment raw => exact not_exact_of_not_countsUp hc
  | deallocateBytes ptr => exact absurd trivial hc
  | setPreAllocation enable raws =>
    unfold WithinAccounts at hc
    push Not at hc
    obtain ⟨rfl, hyes, hlive⟩ := hc
    have hpos := (h.sums_pos hlive).2
    rintro ⟨-, -, -, -, htotal⟩
    rw [BlockPool.call, BlockPool.setPreAllocation, hyes] at htotal
    have hzero : 0 = ((p.live ++ []).map fun b : PoolBlock => footprint b.size b.alignment).sum :=
      htotal
    rw [List.append_nil] at hzero
    omega
  | setMaxPoolSize maxSize => exact absurd trivial hc
  | clearPool =>
    have hpos := (h.sums_pos hc).1
    rintro ⟨hused, -⟩
    have hzero : 0 = (p.live.map fun b => b.size.toNat).sum := hused
    omega

/-- **When the accounts are exact.** In a run of a new pool, on any heap, they are so in every
state exactly when `ClearPool` is only called while nothing is in use, and so is
`SetPreAllocation(false)` on a pool with blocks made in advance, and when the footprint of every
request that is granted, and the number of these requests, are within `size_t`. -/
theorem exact_iff_along (granule : ℕ) (calls : List PoolCall) :
    (machine granule).Always Exact {} calls ↔ (machine granule).Along WithinAccounts {} calls := by
  refine Machine.always_iff_along (fun _ h => Accounts.exact h) ?_ ?_ accounts_new
  · intro p c r h hc hr
    obtain ⟨hadm, rfl⟩ := machine_step hr
    exact h.call hadm hc
  · intro p c r h hc hr
    obtain ⟨-, rfl⟩ := machine_step hr
    exact h.not_exact hc

/-- A pool that is cleared while a block is in use says that nothing is. -/
theorem clearPool_in_use :
    ¬ (machine 16).Always Exact {} [.allocateBytes 100 0x1000, .clearPool] := by
  decide +kernel

end BlockPool
