import HttpServer.Cpp
import HttpServer.Machine
import HttpServer.Memory
import Mathlib.Tactic.SplitIfs

/-!
# Committing received bytes

The receive side of `ConnectionBufferManager` (`core/Buffer/connection_buffer_mgr.cpp`) with
its sizes in `size_t`, as the class has them. `TcpReceive` has the same functions over the
natural numbers, where nothing overflows and an exception is only an answer; here it matters
what an exception leaves behind.

`CommitReceive` adds the number to `receive_committed_` and then asks `Buffer::resize` whether
the buffer is so large. If it is not, `resize` throws and the sum stays: from then on more
bytes count as committed than there are, and the free space, a difference in `size_t`, is
almost `2 ^ 64`. So the call is all or nothing exactly when it does not throw
(`allOrNothing_iff`), and a run keeps within the buffer exactly if all its commits do
(`commits_within_capacity_iff`).
-/

/-- `Buffer`, with its `size_t` fields. -/
structure Buffer64 where
  memory : Memory UInt8
  size : UInt64 := 0
  capacity : UInt64

/-- `Buffer::resize`. -/
def Buffer64.resize (b : Buffer64) (newSize : UInt64) : Except StdException Buffer64 :=
  if b.capacity < newSize then .error .outOfRange else .ok { b with size := newSize }

/-- `MutableBufferView`: the offset of the pointer in the receive buffer, if it is not null,
and the size. -/
structure View64 where
  data : Option UInt64 := none
  size : UInt64 := 0
  deriving DecidableEq

/-- `ConnectionBufferManager`, as far as receiving goes. The default of `receive_strategy_` is
`default_receive_strategy`. -/
structure ReceiveSide64 where
  receiveBuffer : Option Buffer64 := none
  receiveCommitted : UInt64 := 0
  receiveStrategy : UInt64 → UInt64 := fun current => if current = 0 then 4096 else current * 2

namespace ReceiveSide64

/-! ## The source -/

section Source

variable (r : ReceiveSide64)

/-- `PrepareReceive`. `alloc` is the outcome of `CreateBuffer`: the memory it returns. The copy
is of `receive_committed_` bytes, whatever the two capacities are. -/
def prepareReceive (expectedSize : UInt64) (alloc : Option (Memory UInt8)) :
    ReceiveSide64 × Except StdException Bool :=
  if expectedSize = 0 then (r, .ok true)
  else
    match r.receiveBuffer with
    | none =>
      match alloc with
      | none => (r, .ok false)
      | some memory =>
        ({ r with receiveBuffer := some { memory, capacity := expectedSize }
                  receiveCommitted := 0 }, .ok true)
    | some buffer =>
      let freeSpace := buffer.capacity - r.receiveCommitted
      if expectedSize ≤ freeSpace then (r, .ok true)
      else
        let wanted := r.receiveStrategy buffer.capacity
        let newCapacity :=
          if wanted < r.receiveCommitted + expectedSize then r.receiveCommitted + expectedSize
          else wanted
        match alloc with
        | none => (r, .ok false)
        | some memory =>
          let memory := memory.write 0 (buffer.memory.read 0 r.receiveCommitted.toNat)
          match Buffer64.resize { memory, capacity := newCapacity } r.receiveCommitted with
          | .error e => (r, .error e)
          | .ok newBuf => ({ r with receiveBuffer := some newBuf }, .ok true)

/-- The view of `GetReceiveBuffer` once there is a buffer: the part that is still free. -/
def freeView (buffer : Buffer64) : View64 :=
  ⟨some r.receiveCommitted, buffer.capacity - r.receiveCommitted⟩

/-- `GetReceiveBuffer`. With no buffer there, `PrepareReceive` raises no exception. -/
def getReceiveBuffer (alloc : Option (Memory UInt8)) : ReceiveSide64 × View64 :=
  match r.receiveBuffer with
  | some buffer => (r, r.freeView buffer)
  | none =>
    let r' := (r.prepareReceive 4096 alloc).1
    match r'.receiveBuffer with
    | none => (r', {})
    | some buffer => (r', r'.freeView buffer)

/-- `CommitReceive`. The sum is there before `resize` is asked. -/
def commitReceive (bytes : UInt64) : ReceiveSide64 × Except StdException Unit :=
  if bytes = 0 then (r, .ok ())
  else
    match r.receiveBuffer with
    | none => (r, .ok ())
    | some buffer =>
      let r := { r with receiveCommitted := r.receiveCommitted + bytes }
      match buffer.resize r.receiveCommitted with
      | .error e => (r, .error e)
      | .ok buffer => ({ r with receiveBuffer := some buffer }, .ok ())

/-- `GetReceiveBufferSize`. -/
def getReceiveBufferSize : UInt64 := r.receiveCommitted

/-- The part of `ClearAll` that is about receiving. -/
def clearAll : ReceiveSide64 := { r with receiveBuffer := none, receiveCommitted := 0 }

/-- What the owner of a view does: the bytes of the buffer become others. -/
def overwrite (memory : Memory UInt8) : ReceiveSide64 :=
  { r with receiveBuffer := r.receiveBuffer.map fun b => { b with memory } }

end Source

/-- The calls, with the outcomes of the allocations, and writing through a view. -/
inductive Call
  | prepareReceive (expectedSize : UInt64) (alloc : Option (Memory UInt8))
  | getReceiveBuffer (alloc : Option (Memory UInt8))
  | commitReceive (bytes : UInt64)
  | clearAll
  | setReceiveBufferStrategy (strategy : UInt64 → UInt64)
  | overwrite (memory : Memory UInt8)

/-- What the calls return; an exception is caught by the caller. -/
inductive Reply
  | done
  | bool (b : Bool)
  | view (v : View64)
  | raised (e : StdException)
  deriving DecidableEq

/-- The answer of a call that may throw. -/
def Reply.of {β : Type} (ok : β → Reply) : Except StdException β → Reply
  | .ok b => ok b
  | .error e => .raised e

/-- The manager and its user. -/
def machine : Machine ReceiveSide64 Call Reply where
  step r
    | .prepareReceive expectedSize alloc =>
      some ((r.prepareReceive expectedSize alloc).1,
        .of .bool (r.prepareReceive expectedSize alloc).2)
    | .getReceiveBuffer alloc =>
      some ((r.getReceiveBuffer alloc).1, .view (r.getReceiveBuffer alloc).2)
    | .commitReceive bytes =>
      some ((r.commitReceive bytes).1, .of (fun _ => .done) (r.commitReceive bytes).2)
    | .clearAll => some (r.clearAll, .done)
    | .setReceiveBufferStrategy strategy => some ({ r with receiveStrategy := strategy }, .done)
    | .overwrite memory => some (r.overwrite memory, .done)

/-! ## What the calls owe their caller -/

section Specification

variable (r : ReceiveSide64)

/-- The bytes that have been received. -/
def committed : Bytes :=
  match r.receiveBuffer with
  | none => []
  | some buffer => buffer.memory.read 0 r.receiveCommitted.toNat

/-- Nobody can tell the state from an earlier one: the size, the committed bytes and the view
are the same. -/
structure Unchanged (r' : ReceiveSide64) : Prop where
  size_eq : r'.getReceiveBufferSize = r.getReceiveBufferSize
  committed_eq : r'.committed = r.committed
  view_eq : ∀ alloc, (r'.getReceiveBuffer alloc).2 = (r.getReceiveBuffer alloc).2

/-- **`CommitReceive` is all or nothing**: if it throws, it has done nothing. -/
def AllOrNothing : Call → Prop
  | .commitReceive bytes => ∀ e, (r.commitReceive bytes).2 = .error e →
    r.Unchanged (r.commitReceive bytes).1
  | _ => True

/-- Not more is committed than the buffer has room for; without a buffer, nothing is. -/
def WithinCapacity : Prop :=
  match r.receiveBuffer with
  | none => r.receiveCommitted = 0
  | some buffer => r.receiveCommitted ≤ buffer.capacity

/-- A view lies in the buffer that is there; a null view is empty. -/
def HasView (v : View64) : Prop :=
  match v.data with
  | none => v.size = 0
  | some offset =>
    ∃ buffer ∈ r.receiveBuffer, offset.toNat + v.size.toNat ≤ buffer.capacity.toNat

/-- The view that the call returns lies in the buffer. -/
def ViewInside : Call → Prop
  | .getReceiveBuffer alloc => (r.getReceiveBuffer alloc).1.HasView (r.getReceiveBuffer alloc).2
  | _ => True

/-- **The committed bytes and those of the call fit into the buffer**, in `size_t`. -/
def Fits : Call → Prop
  | .commitReceive bytes =>
    bytes = 0 ∨ ∀ buffer ∈ r.receiveBuffer, r.receiveCommitted + bytes ≤ buffer.capacity
  | _ => True

end Specification

/-! ## One call -/

variable {r : ReceiveSide64}

/-- What `CommitReceive` comes to. -/
theorem commitReceive_of_fits {bytes : UInt64} (h : r.Fits (.commitReceive bytes)) :
    (r.commitReceive bytes).2 = .ok () := by
  unfold commitReceive
  by_cases hz : bytes = 0
  · rw [if_pos hz]
  · rw [if_neg hz]
    cases hb : r.receiveBuffer with
    | none => rfl
    | some buffer =>
      have hle : r.receiveCommitted + bytes ≤ buffer.capacity := h.resolve_left hz buffer hb
      simp only [Buffer64.resize, if_neg (UInt64.not_lt.mpr hle)]

/-- A commit that does not fit throws, and the sum stays. -/
theorem commitReceive_of_not_fits {bytes : UInt64} (h : ¬ r.Fits (.commitReceive bytes)) :
    bytes ≠ 0 ∧ r.commitReceive bytes
      = ({ r with receiveCommitted := r.receiveCommitted + bytes }, .error .outOfRange)
    ∧ ∃ buffer, r.receiveBuffer = some buffer
      ∧ buffer.capacity < r.receiveCommitted + bytes := by
  obtain ⟨hz, hb⟩ := not_or.mp h
  push Not at hb
  obtain ⟨buffer, hb, hgt⟩ := hb
  have hb : r.receiveBuffer = some buffer := hb
  have hlt : buffer.capacity < r.receiveCommitted + bytes := UInt64.not_le.mp hgt
  refine ⟨hz, ?_, buffer, hb, hlt⟩
  rw [commitReceive, if_neg hz, hb]
  simp only [Buffer64.resize, if_pos hlt]

/-- **A commit is all or nothing exactly if it fits**, in any state. -/
theorem allOrNothing_iff (r : ReceiveSide64) (a : Call) : r.AllOrNothing a ↔ r.Fits a := by
  cases a with
  | commitReceive bytes =>
    constructor
    · intro h
      by_contra hn
      obtain ⟨hz, he, -⟩ := commitReceive_of_not_fits hn
      have hsize := (h .outOfRange (by rw [he])).size_eq
      rw [he] at hsize
      exact hz (by simpa [getReceiveBufferSize] using hsize)
    · intro h e he
      rw [commitReceive_of_fits h] at he
      cases he
  | prepareReceive _ _ => exact Iff.rfl
  | getReceiveBuffer _ => exact Iff.rfl
  | clearAll => exact Iff.rfl
  | setReceiveBufferStrategy _ => exact Iff.rfl
  | overwrite _ => exact Iff.rfl

theorem withinCapacity_of_some {buffer : Buffer64} (hb : r.receiveBuffer = some buffer) :
    r.WithinCapacity ↔ r.receiveCommitted ≤ buffer.capacity := by
  rw [WithinCapacity, hb]

/-- A buffer that `resize` has accepted is large enough. -/
theorem le_capacity_of_resize {b b' : Buffer64} {n : UInt64} (h : b.resize n = .ok b') :
    n ≤ b'.capacity := by
  unfold Buffer64.resize at h
  split at h
  · cases h
  · cases h
    exact UInt64.not_lt.mp ‹_›

/-- `PrepareReceive` keeps within the capacity: a larger buffer has been asked whether the
committed bytes fit. -/
theorem WithinCapacity.prepareReceive (h : r.WithinCapacity) (expectedSize : UInt64)
    (alloc : Option (Memory UInt8)) : (r.prepareReceive expectedSize alloc).1.WithinCapacity := by
  unfold ReceiveSide64.prepareReceive
  split_ifs
  · exact h
  · cases hb : r.receiveBuffer with
    | none =>
      cases alloc with
      | none => exact h
      | some memory =>
        show (0 : UInt64) ≤ expectedSize
        exact UInt64.zero_le
    | some buffer =>
      dsimp only
      split_ifs
      · exact h
      all_goals
        cases alloc with
        | none => exact h
        | some memory =>
          dsimp only
          split
          · exact h
          · exact le_capacity_of_resize ‹_›

/-- Behind the committed bytes begins what is free. -/
theorem WithinCapacity.freeView_le (h : r.WithinCapacity) {buffer : Buffer64}
    (hb : r.receiveBuffer = some buffer) :
    r.receiveCommitted.toNat + (r.freeView buffer).size.toNat ≤ buffer.capacity.toNat := by
  have hle := (withinCapacity_of_some hb).mp h
  have hsub : (r.freeView buffer).size.toNat
      = buffer.capacity.toNat - r.receiveCommitted.toNat := UInt64.toNat_sub_of_le _ _ hle
  have := UInt64.le_iff_toNat_le.mp hle
  omega

/-- `GetReceiveBuffer` keeps within the capacity, and its view lies in the buffer. -/
theorem WithinCapacity.getReceiveBuffer (h : r.WithinCapacity) (alloc : Option (Memory UInt8)) :
    (r.getReceiveBuffer alloc).1.WithinCapacity
      ∧ (r.getReceiveBuffer alloc).1.HasView (r.getReceiveBuffer alloc).2 := by
  cases hb : r.receiveBuffer with
  | some buffer =>
    have he : r.getReceiveBuffer alloc = (r, r.freeView buffer) := by
      rw [ReceiveSide64.getReceiveBuffer, hb]
    rw [he]
    exact ⟨h, buffer, hb, h.freeView_le hb⟩
  | none =>
    have h' := h.prepareReceive 4096 alloc
    cases hb' : (r.prepareReceive 4096 alloc).1.receiveBuffer with
    | none =>
      have he : r.getReceiveBuffer alloc = ((r.prepareReceive 4096 alloc).1, {}) := by
        simp only [ReceiveSide64.getReceiveBuffer, hb, hb']
      rw [he]
      exact ⟨h', rfl⟩
    | some buffer =>
      have he : r.getReceiveBuffer alloc = ((r.prepareReceive 4096 alloc).1,
          (r.prepareReceive 4096 alloc).1.freeView buffer) := by
        simp only [ReceiveSide64.getReceiveBuffer, hb, hb']
      rw [he]
      exact ⟨h', buffer, hb', h'.freeView_le hb'⟩

/-- `CommitReceive` keeps within the capacity if the bytes fit. -/
theorem WithinCapacity.commitReceive (h : r.WithinCapacity) {bytes : UInt64}
    (hfit : r.Fits (.commitReceive bytes)) : (r.commitReceive bytes).1.WithinCapacity := by
  unfold ReceiveSide64.commitReceive
  split_ifs with hz
  · exact h
  · cases hb : r.receiveBuffer with
    | none => exact h
    | some buffer =>
      have hle : r.receiveCommitted + bytes ≤ buffer.capacity := hfit.resolve_left hz buffer hb
      simp only [Buffer64.resize, if_neg (UInt64.not_lt.mpr hle)]
      exact hle

/-- **Every call keeps within the capacity**, a commit if the bytes fit. -/
theorem WithinCapacity.step (h : r.WithinCapacity) {a : Call} (hfit : r.Fits a)
    {q : ReceiveSide64 × Reply} (hq : machine.step r a = some q) : q.1.WithinCapacity := by
  cases a with
  | prepareReceive n alloc =>
    cases hq
    exact h.prepareReceive n alloc
  | getReceiveBuffer alloc =>
    cases hq
    exact (h.getReceiveBuffer alloc).1
  | commitReceive bytes =>
    cases hq
    exact h.commitReceive hfit
  | clearAll =>
    cases hq
    rfl
  | setReceiveBufferStrategy strategy =>
    cases hq
    exact h
  | overwrite memory =>
    cases hq
    unfold WithinCapacity at h ⊢
    unfold ReceiveSide64.overwrite
    cases hb : r.receiveBuffer with
    | none => simpa [hb] using h
    | some buffer => simpa [hb] using h

/-! ## Runs -/

/-- **Not more is ever committed than the buffer has room for, exactly if every commit
fits.** -/
theorem always_withinCapacity_iff (calls : List Call) :
    machine.Always WithinCapacity {} calls ↔ machine.Along Fits {} calls := by
  refine Machine.always_iff_along (fun _ h => h) (fun r a q h hfit hq => h.step hfit hq) ?_ rfl
  intro r a q _ hfit hq h
  cases a with
  | commitReceive bytes =>
    obtain ⟨-, he, buffer, hb, hlt⟩ := commitReceive_of_not_fits hfit
    cases hq
    rw [he] at h
    have hsum : ({ r with receiveCommitted := r.receiveCommitted + bytes }
      : ReceiveSide64).receiveBuffer = some buffer := hb
    exact UInt64.not_le.mpr hlt ((withinCapacity_of_some hsum).mp h)
  | _ => exact hfit trivial

/-- **All commits of a run are all or nothing, and the committed bytes are always within the
capacity and all views in the buffer, exactly if every commit fits.** -/
theorem commits_within_capacity_iff (calls : List Call) :
    (machine.Along AllOrNothing {} calls ∧ machine.Always WithinCapacity {} calls
      ∧ machine.Along ViewInside {} calls) ↔ machine.Along Fits {} calls := by
  have hall : machine.Along AllOrNothing {} calls ↔ machine.Along Fits {} calls :=
    Machine.along_iff_along (I := fun _ => True) (fun _ _ _ _ _ => trivial)
      (fun r a _ _ _ => allOrNothing_iff r a) trivial
  refine ⟨fun h => hall.mp h.1, fun hfit =>
    ⟨hall.mpr hfit, (always_withinCapacity_iff calls).mpr hfit, ?_⟩⟩
  refine Machine.along_of_along (I := WithinCapacity) (fun r a q h hfit hq => h.step hfit hq)
    ?_ rfl hfit
  intro r a q h _ _
  cases a with
  | getReceiveBuffer alloc => exact (h.getReceiveBuffer alloc).2
  | _ => trivial

/-- Room for ten bytes, of which eleven are committed, and then the next view. -/
def elevenOfTen : List Call :=
  [.prepareReceive 10 (some fun _ => 0), .commitReceive 11, .getReceiveBuffer none]

/-- The commit throws and counts all the same; the view begins behind the end of the buffer
and has almost `2 ^ 64` bytes. -/
example :
    (machine.run {} elevenOfTen).map (fun q => (q.1.receiveCommitted, q.2))
      = some (11, [.bool true, .raised .outOfRange, .view ⟨some 11, 18446744073709551615⟩]) := by
  decide

theorem commitReceive_not_all_or_nothing : ¬ (machine.Along AllOrNothing {} elevenOfTen
    ∧ machine.Always WithinCapacity {} elevenOfTen
    ∧ machine.Along ViewInside {} elevenOfTen) := by
  rintro ⟨-, h, -⟩
  have hfits := (always_withinCapacity_iff elevenOfTen).mp h
  have hcommit : (11 : UInt64) = 0 ∨ ∀ b ∈ some (⟨fun _ => 0, 0, 10⟩ : Buffer64),
    0 + 11 ≤ b.capacity := ((hfits _ rfl).2 _ rfl).1
  exact absurd (hcommit.resolve_left (by decide) _ rfl) (by decide)

end ReceiveSide64
