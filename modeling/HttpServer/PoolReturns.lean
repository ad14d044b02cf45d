import HttpServer.PoolBlocks

/-!
# What the memory pool gives back

`ClearPool`, `SetPreAllocation(false)` and the destructor give the blocks of the free list back to
the heap, by the address of their headers. For a block that was made in advance that is the address
that `operator new` has returned. For one that was handed out and returned the header is just below
the pointer, and that is where the block begins only if the alignment moves nothing: if it is at
most eight. With a larger one, `AllocateBytes` included, the heap is given an address that it never
returned.

`balanced_iff_along` makes this exact: what a pool gives back over its whole life is what it got if
and only if no block of a larger alignment is returned to it.
-/

namespace BlockPool

open DefaultMemoryPool (totalNeeded alignedPointer)
open HeapTrace (HeapEvent Balanced after)

variable {p : BlockPool} {size alignment raw : UInt64} {out : Multiset UInt64}

/-! ## The condition -/

/-- An alignment. -/
def IsAlignment (alignment : UInt64) : Prop := ∃ k < 64, alignment.toNat = 2 ^ k

/-- The alignment of a request is a power of two. -/
def PowerOfTwo : PoolCall → Prop
  | .allocateBytesAligned _ alignment _ => IsAlignment alignment
  | _ => True

/-- The block that a call returns to the pool. -/
def returned (p : BlockPool) : PoolCall → Option PoolBlock
  | .deallocateBytes ptr =>
    if ptr = 0 then none else (p.allocations.find? fun e => e.1 = ptr).map Prod.snd
  | _ => none

/-- **The block that is returned begins with its header**, if there is one. -/
def ReturnsSmall (p : BlockPool) (c : PoolCall) : Prop :=
  ∀ b, p.returned c = some b → b.alignment ≤ 8

instance (p : BlockPool) (c : PoolCall) : Decidable (p.ReturnsSmall c) :=
  match h : p.returned c with
  | none => .isTrue fun b hb => by rw [h] at hb; cases hb
  | some b => decidable_of_iff (b.alignment ≤ 8)
      ⟨fun hle b' hb' => by
        rw [h] at hb'
        cases hb'
        exact hle, fun hall => hall b h⟩

/-! ## Where the header is -/

/-- Dropping the low bits rounds down. -/
theorem toNat_and_not_pred {x m : UInt64} {k : ℕ} (hm : m.toNat = 2 ^ k - 1) :
    (x &&& ~~~m).toNat = x.toNat - x.toNat % 2 ^ k := by
  have hsum := DefaultMemoryPool.toNat_and_add_and_not x m
  rw [UInt64.toNat_and, hm, Nat.and_two_pow_sub_one_eq_mod] at hsum
  omega

/-- The pointer into a block, as a number. -/
theorem toNat_alignedPointer {k : ℕ} (hk : alignment.toNat = 2 ^ k) :
    (alignedPointer raw alignment).toNat
      = (raw.toNat + 24 + 2 ^ k - 1) % 2 ^ 64
        - (raw.toNat + 24 + 2 ^ k - 1) % 2 ^ 64 % 2 ^ k := by
  have hpos : 0 < 2 ^ k := Nat.two_pow_pos k
  have hmask : (alignment - 1).toNat = 2 ^ k - 1 := by
    rw [UInt64.toNat_sub_of_le _ _ (UInt64.le_iff_toNat_le.mpr (by rw [hk]; exact hpos)), hk]
    rfl
  have hsum : (raw + sizeofBlockHeader + alignment - 1).toNat
      = (raw.toNat + 24 + 2 ^ k - 1) % 2 ^ 64 := by
    rw [UInt64.toNat_sub, UInt64.toNat_add, UInt64.toNat_add, hk]
    show (2 ^ 64 - 1 + ((raw.toNat + 24) % 2 ^ 64 + 2 ^ k) % 2 ^ 64) % 2 ^ 64 = _
    omega
  rw [alignedPointer, toNat_and_not_pred hmask, hsum]

/-- **With a small alignment the header is where the block begins.** -/
theorem header_eq_raw (hraw : 16 ∣ raw.toNat) (hal : IsAlignment alignment)
    (hsmall : alignment ≤ 8) : alignedPointer raw alignment - sizeofBlockHeader = raw := by
  obtain ⟨k, -, hk⟩ := hal
  have hk8 : 2 ^ k ≤ 2 ^ 3 := hk ▸ UInt64.le_iff_toNat_le.mp hsmall
  have hk3 : k ≤ 3 := (Nat.pow_le_pow_iff_right (by omega)).mp hk8
  have hlt := raw.toNat_lt
  apply UInt64.toNat_inj.mp
  rw [UInt64.toNat_sub, toNat_alignedPointer hk]
  show (2 ^ 64 - 24 + _) % 2 ^ 64 = raw.toNat
  obtain rfl | rfl | rfl | rfl : k = 0 ∨ k = 1 ∨ k = 2 ∨ k = 3 := by omega
  all_goals omega

/-- **With a larger one it is where no block can begin.** -/
theorem header_mod (hal : IsAlignment alignment) (hlarge : ¬ alignment ≤ 8) :
    (alignedPointer raw alignment - sizeofBlockHeader).toNat % 16 = 8 := by
  obtain ⟨k, hk64, hk⟩ := hal
  have hk8 : 2 ^ 3 < 2 ^ k := by
    rw [UInt64.le_iff_toNat_le, hk] at hlarge
    exact Nat.not_le.mp hlarge
  have hk3 : 3 < k := (Nat.pow_lt_pow_iff_right (by omega)).mp hk8
  have h16 : 16 ∣ 2 ^ k := Nat.pow_dvd_pow 2 (show 4 ≤ k from hk3)
  have hpointer : 16 ∣ (alignedPointer raw alignment).toNat := by
    rw [toNat_alignedPointer hk]
    exact h16.trans (Nat.dvd_sub_mod _)
  rw [UInt64.toNat_sub]
  show (2 ^ 64 - 24 + (alignedPointer raw alignment).toNat) % 2 ^ 64 % 16 = 8
  omega

/-! ## What a call does to the blocks -/

/-- **The header of a block in use** is where it begins, or where no block can begin. -/
def HeaderPlaced (b : PoolBlock) : Prop :=
  (b.alignment ≤ 8 → b.addr = b.raw) ∧ (¬ b.alignment ≤ 8 → b.addr.toNat % 16 = 8)

/-- **What a call does to the blocks**, by the block that it returns to the pool and what it asks
of the heap. -/
inductive BlockEffect (p p' : BlockPool) :
    Option PoolBlock → List (HeapEvent UInt64) → Prop
  | same (hfree : p'.freeList = p.freeList) (hlive : p'.live = p.live) : BlockEffect p p' none []
  | granted {b : PoolBlock} {rest : List PoolBlock} (hfree : p'.freeList = p.freeList)
      (hlive : p'.live = b :: rest) (hrest : rest.Sublist p.live) (hb : HeaderPlaced b)
      (hraw : 16 ∣ b.raw.toNat) : BlockEffect p p' none [.new b.raw]
  | returned {b : PoolBlock} (hfree : p'.freeList = { b with inUse := false } :: p.freeList)
      (hlive : (b :: p'.live).Subperm p.live) : BlockEffect p p' (some b) []
  | made {raws : List UInt64}
      (hfree : (p'.freeList.map PoolBlock.addr).Perm (raws ++ p.freeList.map PoolBlock.addr))
      (hlive : p'.live = p.live) (hraws : ∀ raw ∈ raws, 16 ∣ raw.toNat) :
      BlockEffect p p' none (raws.map .new)
  | cleared (hfree : p'.freeList = []) (hlive : p'.live = p.live) :
      BlockEffect p p' none p.deleteFreeList

/-- A request. -/
theorem request_effect (hal : IsAlignment alignment)
    (hreturn : p.Grants size alignment → p.MayReturn 16 (totalNeeded size alignment) raw) :
    BlockEffect p (p.allocateBytesAligned size alignment raw).2 none
      (p.grantEvents size alignment raw) := by
  unfold grantEvents
  by_cases hgrants : p.Grants size alignment
  · have hraw : 16 ∣ raw.toNat := (hreturn hgrants).1
    rw [if_pos hgrants, allocateBytesAligned_of_grants hgrants]
    exact .granted (b := ⟨⟨size, true, alignment⟩, raw, _⟩) rfl rfl
      (List.filter_sublist.map Prod.snd) ⟨header_eq_raw hraw hal, header_mod hal⟩ hraw
  · rw [if_neg hgrants, allocateBytesAligned_of_not_grants hgrants]
    exact .same rfl rfl

/-- What is among others is so by its parts. -/
theorem subperm_map {α β : Type*} (f : α → β) {l l' : List α} (h : l.Subperm l') :
    (l.map f).Subperm (l'.map f) :=
  @Multiset.map_le_map α β f ↑l ↑l' h

/-- An entry of a table, and those with other keys. -/
theorem subperm_of_find? {l : List (UInt64 × PoolBlock)} {ptr : UInt64} {e : UInt64 × PoolBlock}
    (h : l.find? (fun e => e.1 = ptr) = some e) :
    (e :: l.filter fun e => e.1 ≠ ptr).Subperm l := by
  have hmem : e ∈ l.filter fun e => e.1 = ptr :=
    List.mem_filter.mpr ⟨List.mem_of_find?_eq_some h, by simpa using List.find?_some h⟩
  have hsplit := List.filter_append_perm (fun e : UInt64 × PoolBlock => decide (e.1 = ptr)) l
  simp only [← decide_not] at hsplit
  refine List.Subperm.trans ?_ hsplit.subperm
  exact ((List.singleton_sublist.mpr hmem).append_right _).subperm

theorem deallocateBytes_effect (ptr : UInt64) :
    BlockEffect p (p.deallocateBytes ptr) (p.returned (.deallocateBytes ptr)) [] := by
  unfold deallocateBytes returned
  dsimp only
  split
  · exact .same rfl rfl
  · split
    · rename_i hfind
      rw [hfind]
      exact .same rfl rfl
    · rename_i key header hfind
      rw [hfind]
      refine .returned rfl ?_
      exact subperm_map Prod.snd (subperm_of_find? hfind)

/-- The blocks that are made in advance have their headers in front. -/
theorem preAllocate_freeList (blocks : List (UInt64 × UInt64)) :
    ((p.preAllocate blocks).freeList.map PoolBlock.addr).Perm
        (blocks.map Prod.snd ++ p.freeList.map PoolBlock.addr)
      ∧ (p.preAllocate blocks).live = p.live := by
  induction blocks generalizing p with
  | nil => exact ⟨List.Perm.refl _, rfl⟩
  | cons b blocks ih =>
    obtain ⟨hfree, hlive⟩ := @ih (p.preAllocateBlock b.1 b.2)
    exact ⟨hfree.trans List.perm_middle, hlive⟩

theorem mayReturnAll_dvd {granule : ℕ} {blocks : List (UInt64 × UInt64)}
    (h : p.MayReturnAll granule blocks) : ∀ b ∈ blocks, granule ∣ b.2.toNat := by
  induction blocks generalizing p with
  | nil => exact fun b hb => (by cases hb)
  | cons b blocks ih => exact List.forall_mem_cons.mpr ⟨h.1.1, ih h.2⟩

theorem setPreAllocation_effect {enable : Bool} {raws : List UInt64}
    (hadm : p.Admissible 16 (.setPreAllocation enable raws)) :
    BlockEffect p (p.setPreAllocation enable raws) none
      (p.events (.setPreAllocation enable raws)) := by
  unfold setPreAllocation events
  dsimp only
  split
  · rename_i henable
    obtain ⟨henable, hno⟩ := Bool.and_eq_true_iff.mp henable
    obtain ⟨hlength, hreturn⟩ := hadm henable (by simpa using hno)
    have hraws : (preAllocatedSizes.zip raws).map Prod.snd = raws :=
      List.map_snd_zip (by rw [hlength]; decide)
    obtain ⟨hfree, hlive⟩ := preAllocate_freeList (p := p) (preAllocatedSizes.zip raws)
    rw [hraws] at hfree
    refine .made hfree hlive fun raw hraw => ?_
    rw [← hraws] at hraw
    obtain ⟨b, hb, rfl⟩ := List.mem_map.mp hraw
    exact mayReturnAll_dvd hreturn b hb
  · split
    · exact .cleared rfl rfl
    · exact .same rfl rfl

/-- **Every call does one of these.** -/
theorem call_effect {c : PoolCall} (hadm : p.Admissible 16 c) (hpow : PowerOfTwo c) :
    BlockEffect p (p.call c) (p.returned c) (p.events c) := by
  cases c with
  | allocateBytes size raw => exact request_effect ⟨4, by decide, rfl⟩ hadm
  | allocateBytesAligned size alignment raw => exact request_effect hpow hadm.2
  | deallocateBytes ptr => exact deallocateBytes_effect ptr
  | setPreAllocation enable raws => exact setPreAllocation_effect hadm
  | setMaxPoolSize maxSize => exact .same rfl rfl
  | clearPool => exact .cleared rfl rfl

/-! ## What is owned -/

/-- What every call keeps, with what is out of the heap. -/
structure Placed (p : BlockPool) (out : Multiset UInt64) : Prop where
  live : ∀ b ∈ p.live, HeaderPlaced b
  multiple : ∀ a ∈ out, 16 ∣ a.toNat

/-- **The pool owns its blocks**: those of the free list by the addresses that it will give back,
those in use by the addresses that it got. -/
structure Owned (p : BlockPool) (out : Multiset UInt64) : Prop extends Placed p out where
  owned : (↑(p.freeList.map PoolBlock.addr) + ↑(p.live.map PoolBlock.raw) : Multiset UInt64) ≤ out

/-- **The pool will give back what it never got.** -/
structure Spoilt (p : BlockPool) (out : Multiset UInt64) : Prop extends Placed p out where
  spoilt : ∃ a ∈ p.freeList.map PoolBlock.addr, a.toNat % 16 = 8

theorem owned_new : Owned {} 0 where
  live := fun b hb => (by cases hb)
  multiple := fun a ha => (by simp at ha)
  owned := le_refl 0

/-- What will be given back is not out. -/
theorem Spoilt.not_balanced (h : p.Spoilt out) : ¬ Balanced out p.deleteFreeList := by
  obtain ⟨a, ha, hmod⟩ := h.spoilt
  refine HeapTrace.not_balanced_map_delete ha fun hout => ?_
  have hdvd := h.multiple a hout
  omega

/-- **What the pool owns it can give back.** -/
theorem Owned.deleteFreeList (h : p.Owned out) :
    Balanced out p.deleteFreeList
      ∧ (↑(p.live.map PoolBlock.raw) : Multiset UInt64) ≤ p.deleteFreeList.foldl after out :=
  HeapTrace.balanced_map_delete h.owned

/-- Giving back adds nothing to what is out. -/
theorem foldl_delete_le (out : Multiset UInt64) (addresses : List UInt64) :
    (addresses.map .delete).foldl after out ≤ out := by
  induction addresses generalizing out with
  | nil => exact le_refl out
  | cons a addresses ih => exact (ih (out.erase a)).trans (Multiset.erase_le a out)

variable {p' : BlockPool} {b? : Option PoolBlock} {events : List (HeapEvent UInt64)}

theorem Placed.effect (h : p.Placed out) (he : BlockEffect p p' b? events) :
    p'.Placed (events.foldl after out) := by
  cases he with
  | same _ hlive => exact ⟨by rw [hlive]; exact h.live, h.multiple⟩
  | granted _ hlive hrest hb hraw =>
    refine ⟨?_, fun a ha => ?_⟩
    · rw [hlive]
      exact List.forall_mem_cons.mpr ⟨hb, fun b hin => h.live b (hrest.subset hin)⟩
    · rcases Multiset.mem_cons.mp ha with rfl | ha
      · exact hraw
      · exact h.multiple a ha
  | returned _ hlive =>
    exact ⟨fun b hin => h.live b (hlive.subset (List.mem_cons_of_mem _ hin)), h.multiple⟩
  | @made raws _ hlive hraws =>
    refine ⟨by rw [hlive]; exact h.live, fun a ha => ?_⟩
    rw [(HeapTrace.balanced_map_new out raws).2] at ha
    rcases Multiset.mem_add.mp ha with ha | ha
    · exact hraws a ha
    · exact h.multiple a ha
  | cleared _ hlive =>
    exact ⟨by rw [hlive]; exact h.live,
      fun a ha => h.multiple a (Multiset.mem_of_le (foldl_delete_le out _) ha)⟩

/-- **A call that returns no block of a larger alignment** gives back what is owned. -/
theorem Owned.effect (h : p.Owned out) (he : BlockEffect p p' b? events)
    (hsmall : ∀ b, b? = some b → b.alignment ≤ 8) :
    Balanced out events ∧ p'.Owned (events.foldl after out) := by
  have hplaced := h.toPlaced.effect he
  have howned := h.owned
  cases he with
  | same hfree hlive => exact ⟨trivial, hplaced, by rw [hfree, hlive]; exact howned⟩
  | @granted b rest hfree hlive hrest hb hraw =>
    refine ⟨(HeapTrace.balanced_map_new out [b.raw]).1, hplaced, ?_⟩
    have hle : (↑(rest.map PoolBlock.raw) : Multiset UInt64) ≤ ↑(p.live.map PoolBlock.raw) :=
      (hrest.map PoolBlock.raw).subperm
    rw [hfree, hlive, List.map_cons, ← Multiset.cons_coe, Multiset.add_cons]
    exact Multiset.cons_le_cons _ ((add_le_add_right hle _).trans howned)
  | @returned b hfree hlive =>
    have haddr : b.addr = b.raw :=
      (h.live b (hlive.subset List.mem_cons_self)).1 (hsmall b rfl)
    refine ⟨trivial, hplaced, ?_⟩
    have hle : (b.raw ::ₘ ↑(p'.live.map PoolBlock.raw) : Multiset UInt64)
        ≤ ↑(p.live.map PoolBlock.raw) := subperm_map PoolBlock.raw hlive
    rw [hfree, List.map_cons, ← Multiset.cons_coe, Multiset.cons_add, ← Multiset.add_cons]
    show _ + b.addr ::ₘ _ ≤ out
    rw [haddr]
    exact (add_le_add_right hle _).trans howned
  | @made raws hfree hlive hraws =>
    obtain ⟨hbalanced, hout⟩ := HeapTrace.balanced_map_new out raws
    refine ⟨hbalanced, hplaced, ?_⟩
    rw [hout, hlive, Multiset.coe_eq_coe.mpr hfree, ← Multiset.coe_add, add_assoc]
    exact add_le_add_right howned _
  | cleared hfree hlive =>
    obtain ⟨hbalanced, hrest⟩ := h.deleteFreeList
    refine ⟨hbalanced, hplaced, ?_⟩
    rw [hfree, hlive, List.map_nil, Multiset.coe_nil, zero_add]
    exact hrest

/-- **A block of a larger alignment** spoils the free list. -/
theorem Placed.spoilt_of_returned (h : p.Placed out) {b : PoolBlock}
    (he : BlockEffect p p' (some b) events) (hlarge : ¬ b.alignment ≤ 8) :
    p'.Spoilt (events.foldl after out) := by
  have hplaced := h.effect he
  cases he with
  | returned hfree hlive =>
    refine ⟨hplaced, b.addr, ?_, (h.live b (hlive.subset List.mem_cons_self)).2 hlarge⟩
    rw [hfree]
    exact List.mem_cons_self

/-- A free list that is spoilt stays so until it is given back. -/
theorem Spoilt.effect (h : p.Spoilt out) (he : BlockEffect p p' b? events) :
    ¬ Balanced out events ∨ p'.Spoilt (events.foldl after out) := by
  have hplaced := h.toPlaced.effect he
  obtain ⟨a, ha, hmod⟩ := h.spoilt
  cases he with
  | same hfree _ => exact Or.inr ⟨hplaced, a, by rwa [hfree], hmod⟩
  | granted hfree _ _ _ _ => exact Or.inr ⟨hplaced, a, by rwa [hfree], hmod⟩
  | returned hfree _ =>
    exact Or.inr ⟨hplaced, a, by rw [hfree]; exact List.mem_cons_of_mem _ ha, hmod⟩
  | made hfree _ _ =>
    exact Or.inr ⟨hplaced, a, hfree.mem_iff.mpr (List.mem_append_right _ ha), hmod⟩
  | cleared _ _ => exact Or.inl h.not_balanced

/-! ## Runs -/

/-- **A pool that is spoilt** gives back, at the latest in its destructor, what it never got. -/
theorem Spoilt.run (h : p.Spoilt out) {calls : List PoolCall}
    (hpow : ∀ c ∈ calls, PowerOfTwo c) {os : List (List (HeapEvent UInt64))}
    (hr : (machine 16).run p (calls ++ [.clearPool]) = some (p', os)) :
    ¬ Balanced out os.flatten := by
  induction calls generalizing p out os with
  | nil =>
    obtain ⟨r, os', hstep, hr', rfl⟩ := Machine.run_cons_eq_some.mp hr
    cases hr'
    obtain ⟨-, rfl⟩ := machine_step hstep
    rw [List.flatten_cons, List.flatten_nil, List.append_nil]
    exact h.not_balanced
  | cons c calls ih =>
    obtain ⟨hc, hcalls⟩ := List.forall_mem_cons.mp hpow
    obtain ⟨r, os', hstep, hr', rfl⟩ := Machine.run_cons_eq_some.mp hr
    obtain ⟨hadm, rfl⟩ := machine_step hstep
    rw [List.flatten_cons, HeapTrace.balanced_append]
    rintro ⟨hnow, hlater⟩
    rcases h.effect (call_effect hadm hc) with hno | hspoilt
    · exact hno hnow
    · exact ih hspoilt hcalls hr' hlater

/-- What a pool that owns its blocks gives back. -/
theorem Owned.run (h : p.Owned out) {calls : List PoolCall}
    (hpow : ∀ c ∈ calls, PowerOfTwo c) {os : List (List (HeapEvent UInt64))}
    (hr : (machine 16).run p (calls ++ [.clearPool]) = some (p', os)) :
    Balanced out os.flatten ↔ (machine 16).Along ReturnsSmall p calls := by
  induction calls generalizing p out os with
  | nil =>
    obtain ⟨r, os', hstep, hr', rfl⟩ := Machine.run_cons_eq_some.mp hr
    cases hr'
    obtain ⟨-, rfl⟩ := machine_step hstep
    rw [List.flatten_cons, List.flatten_nil, List.append_nil]
    exact iff_of_true h.deleteFreeList.1 trivial
  | cons c calls ih =>
    obtain ⟨hc, hcalls⟩ := List.forall_mem_cons.mp hpow
    obtain ⟨r, os', hstep, hr', rfl⟩ := Machine.run_cons_eq_some.mp hr
    rw [Machine.along_cons hstep]
    obtain ⟨hadm, rfl⟩ := machine_step hstep
    rw [List.flatten_cons, HeapTrace.balanced_append]
    have heffect := call_effect hadm hc
    by_cases hsmall : p.ReturnsSmall c
    · obtain ⟨hbalanced, hnext⟩ := h.effect heffect hsmall
      rw [ih hnext hcalls hr']
      exact and_congr (iff_of_true hbalanced hsmall) Iff.rfl
    · refine iff_of_false (fun hall => ?_) fun hall => hsmall hall.1
      unfold ReturnsSmall at hsmall
      push Not at hsmall
      obtain ⟨b, hb, hlarge⟩ := hsmall
      rw [hb] at heffect
      have hspoilt := h.toPlaced.spoilt_of_returned heffect hlarge
      exact hspoilt.run hcalls hr' hall.2

/-- **What the pool gives back.** In every run of a new pool up to its destructor, whatever the
heap returns, each address that is given back is one that the heap has returned, and is not given
back twice, exactly if every block that is returned to the pool was asked for with an alignment of
at most eight. -/
theorem balanced_iff_along {calls : List PoolCall} (hpow : ∀ c ∈ calls, PowerOfTwo c)
    {os : List (List (HeapEvent UInt64))}
    (hr : (machine 16).run {} (calls ++ [.clearPool]) = some (p', os)) :
    Balanced 0 os.flatten ↔ (machine 16).Along ReturnsSmall {} calls :=
  owned_new.run hpow hr

/-- A block with an alignment of eight, back where it came from. -/
theorem balanced_iff_along_eight :
    Balanced 0 [HeapEvent.new (0x1000 : UInt64), .delete 0x1000] := by
  have hrun : (machine 16).run {} ([.allocateBytesAligned 40 8 0x1000, .deallocateBytes 0x1018]
      ++ [.clearPool]) = some ({}, [[.new 0x1000], [], [.delete 0x1000]]) := by
    decide +kernel
  have hpow : ∀ c ∈ [PoolCall.allocateBytesAligned 40 8 0x1000, .deallocateBytes 0x1018],
      PowerOfTwo c := by
    intro c hc
    rcases List.mem_cons.mp hc with rfl | hc
    · exact ⟨3, by decide, rfl⟩
    · rw [List.mem_singleton.mp hc]
      trivial
  exact (balanced_iff_along hpow hrun).mpr (by decide +kernel)

/-- A block of forty bytes is asked for and returned, and the heap is given an address eight bytes
behind the one that it has returned. -/
theorem allocateBytes_not_given_back : ∃ p os,
    (machine 16).run {} ([.allocateBytes 40 0x1000, .deallocateBytes 0x1020] ++ [.clearPool])
        = some (p, os)
      ∧ ¬ Balanced 0 os.flatten := by
  refine ⟨{}, [[.new 0x1000], [], [.delete 0x1008]], by decide +kernel, fun h => ?_⟩
  exact absurd (h.2.1 0x1008 rfl) (by decide)

end BlockPool
