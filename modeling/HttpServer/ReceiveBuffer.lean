import HttpServer.TcpReceive

/-!
# The receive buffer across growth

The receive side of `ConnectionBufferManager` is used in rounds: room is made with
`PrepareReceive`, a view of the free part is taken with `GetReceiveBuffer`, bytes are written
into the view, and `CommitReceive` says how many of them count. `PrepareReceive` may replace
the buffer by a larger one, whose size is up to a strategy that can be any function, and then
copies what has been committed.

What has been committed is never lost by this (`receive_keeps_committed`), as long as writes
and commits keep to what earlier commits have left of the latest view, and to the view of the
buffer that is there. `CommitReceive` itself checks neither: it adds the number before it
finds out that the buffer is too small.
-/

/-! ## The source -/

namespace ReceiveSide

/-- `SetReceiveBufferStrategy`; an empty function stands for the default one. -/
def setReceiveBufferStrategy (r : ReceiveSide) (strategy : Option (ℕ → ℕ)) : ReceiveSide :=
  { r with receiveStrategy := strategy.getD defaultReceiveStrategy }

/-- `GetReceiveBufferSize`. -/
def getReceiveBufferSize (r : ReceiveSide) : ℕ := r.receiveCommitted

/-- `PrepareReceive` has nothing to do. -/
def HasRoom (r : ReceiveSide) (n : ℕ) : Prop :=
  n = 0 ∨ ∃ b, r.receiveBuffer = some b ∧ n ≤ b.capacity - r.receiveCommitted

instance (r : ReceiveSide) (n : ℕ) : Decidable (r.HasRoom n) :=
  match h : r.receiveBuffer with
  | none => decidable_of_iff (n = 0) (by simp [HasRoom, h])
  | some b => decidable_of_iff (n = 0 ∨ n ≤ b.capacity - r.receiveCommitted) (by simp [HasRoom, h])

end ReceiveSide

/-! ## Runs -/

/-- A view with what has become of it: where it begins, its size, how much of it commits have
taken, what it holds, and whether the buffer it points into is still there. -/
structure Window where
  start : ℕ
  size : ℕ
  taken : ℕ := 0
  contents : Memory UInt8
  live : Bool := true

/-- A receive side with the latest view, unless it was a null one, the room that
`PrepareReceive` has promised for the next, and all that has been written and committed. -/
structure Filling where
  side : ReceiveSide
  window : Option Window := none
  promised : ℕ := 0
  received : Bytes := []

/-- The calls, with the outcomes of the allocations, and the writes into the latest view. -/
inductive FillCall
  | prepareReceive (expectedSize : ℕ) (alloc : Option (Memory UInt8))
  | getReceiveBuffer (alloc : Option (Memory UInt8))
  | write (offset : ℕ) (data : Bytes)
  | commitReceive (bytes : ℕ)
  | setReceiveBufferStrategy (strategy : Option (ℕ → ℕ))

/-- What the calls return. -/
inductive FillReply
  | done
  | bool (b : Bool)
  | size (n : ℕ)
  | raised (e : StdException)

namespace Filling

variable (s : Filling)

/-- `PrepareReceive`. A buffer that is replaced leaves the view into it behind. -/
def prepareReceive (expectedSize : ℕ) (alloc : Option (Memory UInt8)) : Filling × FillReply :=
  match s.side.prepareReceive expectedSize alloc with
  | .error e => (s, .raised e)
  | .ok (ok, side) =>
    ({ s with
        side
        window :=
          if ok = true ∧ ¬ s.side.HasRoom expectedSize then
            s.window.map fun w => { w with live := false }
          else s.window
        promised := if ok = true then max s.promised expectedSize else s.promised }, .bool ok)

/-- `GetReceiveBuffer`. -/
def getReceiveBuffer (alloc : Option (Memory UInt8)) : Filling × FillReply :=
  match s.side.getReceiveBuffer alloc with
  | .error e => (s, .raised e)
  | .ok (view, side) =>
    let window :=
      match view.data, side.receiveBuffer with
      | some start, some b =>
        some { start, size := view.size, contents := fun i => b.memory (start + i) }
      | _, _ => none
    ({ s with side, window, promised := 0 }, .size view.size)

/-- Bytes that are written into the view. -/
def write (w : Window) (offset : ℕ) (data : Bytes) : Filling :=
  { s with
    side := s.side.store ⟨some (w.start + offset), data.length⟩ data
    window := some { w with contents := w.contents.write offset data } }

/-- `CommitReceive`. Where the buffer refuses the new size, the number has been added. -/
def commitReceive (bytes : ℕ) : Filling × FillReply :=
  let s' : Filling :=
    { s with
      window := s.window.map fun w => { w with taken := w.taken + bytes }
      promised := s.promised - bytes
      received := s.received ++ (s.window.elim [] fun w => w.contents.read w.taken bytes) }
  match s.side.commitReceive bytes with
  | .ok side => ({ s' with side }, .done)
  | .error e =>
    ({ s' with side := { s.side with receiveCommitted := s.side.receiveCommitted + bytes } },
      .raised e)

end Filling

/-- The receive side with its user. There is no writing outside of a view, or into one whose
buffer is gone. -/
def filling : Machine Filling FillCall FillReply where
  step s
    | .prepareReceive expectedSize alloc => some (s.prepareReceive expectedSize alloc)
    | .getReceiveBuffer alloc => some (s.getReceiveBuffer alloc)
    | .write offset data =>
      s.window.bind fun w =>
        if w.live = true ∧ offset + data.length ≤ w.size then some (s.write w offset data, .done)
        else none
    | .commitReceive bytes => some (s.commitReceive bytes)
    | .setReceiveBufferStrategy strategy =>
      some ({ s with side := s.side.setReceiveBufferStrategy strategy }, .done)

/-- A new manager with a strategy. -/
def Filling.start (strategy : Option (ℕ → ℕ)) : Filling :=
  { side := ({} : ReceiveSide).setReceiveBufferStrategy strategy }

/-- **Every committed byte is kept**: the committed part of the buffer is what has been
written and committed, `GetReceiveBufferSize` is its length, and the buffer has room for it. -/
structure Filling.Kept (s : Filling) : Prop where
  buffered_eq : s.side.buffered = s.received
  size_eq : s.side.getReceiveBufferSize = s.received.length
  le_capacity : ∀ b ∈ s.side.receiveBuffer, s.side.receiveCommitted ≤ b.capacity

/-- **What a call owes its caller**: no call raises an exception, `PrepareReceive` changes
nothing if it returns false, and the view has the promised room. -/
def Filling.Fulfils (s : Filling) : FillCall → Prop
  | .prepareReceive expectedSize alloc =>
    ∃ ok side, s.side.prepareReceive expectedSize alloc = .ok (ok, side)
      ∧ (ok = false → side = s.side)
  | .getReceiveBuffer alloc =>
    ∃ view side, s.side.getReceiveBuffer alloc = .ok (view, side) ∧ s.promised ≤ view.size
  | .commitReceive bytes => ∃ side, s.side.commitReceive bytes = .ok side
  | _ => True

/-- A commit of at most the size of the latest view. -/
def Filling.AtMostView (s : Filling) : FillCall → Prop
  | .commitReceive bytes => bytes ≤ s.window.elim 0 Window.size
  | _ => True

/-- **Writes and commits within the rest of the latest view**: behind what commits have taken
of it, and while its buffer is there. -/
def Filling.WithinRest (s : Filling) : FillCall → Prop
  | .write offset _ => ∀ w ∈ s.window, w.taken ≤ offset
  | .commitReceive bytes =>
    bytes = 0 ∨ ∃ w ∈ s.window, w.live = true ∧ w.taken + bytes ≤ w.size
  | _ => True

instance : DecidablePred Filling.Kept := fun s =>
  decidable_of_iff (s.side.buffered = s.received
      ∧ s.side.getReceiveBufferSize = s.received.length
      ∧ ∀ b ∈ s.side.receiveBuffer, s.side.receiveCommitted ≤ b.capacity)
    ⟨fun h => ⟨h.1, h.2.1, h.2.2⟩, fun h => ⟨h.1, h.2, h.3⟩⟩

instance (s : Filling) : (a : FillCall) → Decidable (s.AtMostView a)
  | .commitReceive bytes => inferInstanceAs (Decidable (bytes ≤ s.window.elim 0 Window.size))
  | .prepareReceive _ _ => inferInstanceAs (Decidable True)
  | .getReceiveBuffer _ => inferInstanceAs (Decidable True)
  | .write _ _ => inferInstanceAs (Decidable True)
  | .setReceiveBufferStrategy _ => inferInstanceAs (Decidable True)

instance (s : Filling) : (a : FillCall) → Decidable (s.WithinRest a)
  | .write offset _ => inferInstanceAs (Decidable (∀ w ∈ s.window, w.taken ≤ offset))
  | .commitReceive bytes => inferInstanceAs (Decidable
      (bytes = 0 ∨ ∃ w ∈ s.window, w.live = true ∧ w.taken + bytes ≤ w.size))
  | .prepareReceive _ _ => inferInstanceAs (Decidable True)
  | .getReceiveBuffer _ => inferInstanceAs (Decidable True)
  | .setReceiveBufferStrategy _ => inferInstanceAs (Decidable True)

/-! ## One call -/

/-- What `PrepareReceive` can come to: it fails, there is room, or there is a new buffer with
the committed bytes in it and room behind them. -/
inductive ReceiveSide.Prepared (r : ReceiveSide) (n : ℕ) : Bool → ReceiveSide → Prop
  | failed : Prepared r n false r
  | room (h : r.HasRoom n) : Prepared r n true r
  | grown (h : ¬ r.HasRoom n) (b : Buffer) (hfree : r.receiveCommitted + n ≤ b.capacity)
    (hread : b.memory.read 0 r.receiveCommitted = r.buffered) :
    Prepared r n true { r with receiveBuffer := some b }

theorem ReceiveSide.buffered_of_none {r : ReceiveSide} (h : r.receiveBuffer = none) :
    r.buffered = [] := by
  rw [buffered, load, h]

theorem ReceiveSide.buffered_of_some {r : ReceiveSide} {b : Buffer}
    (h : r.receiveBuffer = some b) : r.buffered = b.memory.read 0 r.receiveCommitted := by
  rw [buffered, load, h]

/-- **What `PrepareReceive` does**, whatever the strategy says. -/
theorem ReceiveSide.prepareReceive_prepared {r : ReceiveSide}
    (hnone : r.receiveBuffer = none → r.receiveCommitted = 0) (n : ℕ)
    (alloc : Option (Memory UInt8)) :
    ∃ ok side, r.prepareReceive n alloc = .ok (ok, side) ∧ r.Prepared n ok side := by
  unfold prepareReceive
  by_cases hzero : n = 0
  · rw [if_pos hzero]
    exact ⟨true, r, rfl, .room (Or.inl hzero)⟩
  rw [if_neg hzero]
  cases hb : r.receiveBuffer with
  | none =>
    have hroom : ¬ r.HasRoom n := by
      rintro (h0 | ⟨b, hb', -⟩)
      · exact hzero h0
      · rw [hb] at hb'
        cases hb'
    cases alloc with
    | none => exact ⟨false, r, rfl, .failed⟩
    | some memory =>
      have hside : { r with
          receiveBuffer := some { memory, capacity := n }, receiveCommitted := 0 }
          = { r with receiveBuffer := some { memory, capacity := n } } := by
        rw [hnone hb]
      refine ⟨true, _, rfl, ?_⟩
      rw [hside]
      refine .grown hroom _ ?_ ?_
      · exact Nat.le_of_eq (by rw [hnone hb, Nat.zero_add])
      · rw [buffered_of_none hb, hnone hb]
        rfl
  | some b =>
    dsimp only
    by_cases hfree : n ≤ b.capacity - r.receiveCommitted
    · rw [if_pos hfree]
      exact ⟨true, r, rfl, .room (Or.inr ⟨b, hb, hfree⟩)⟩
    rw [if_neg hfree]
    have hroom : ¬ r.HasRoom n := by
      rintro (h0 | ⟨b', hb', hle⟩)
      · exact hzero h0
      · rw [hb] at hb'
        cases hb'
        exact hfree hle
    cases alloc with
    | none => exact ⟨false, r, rfl, .failed⟩
    | some memory =>
      have hle : r.receiveCommitted + n
          ≤ max (r.receiveStrategy b.capacity) (r.receiveCommitted + n) := Nat.le_max_right _ _
      have hresize : ¬ max (r.receiveStrategy b.capacity) (r.receiveCommitted + n)
          < r.receiveCommitted := by omega
      dsimp only
      rw [Buffer.resize, if_neg hresize]
      refine ⟨true, _, rfl, .grown hroom _ hle ?_⟩
      have hread := memory.read_write_self 0 (b.memory.read 0 r.receiveCommitted)
      rw [Memory.length_read] at hread
      rw [hread, buffered_of_some hb]

/-- What `GetReceiveBuffer` can come to: there is no memory, or the view is the free part of a
buffer, the old one if there was one. -/
theorem ReceiveSide.getReceiveBuffer_cases {r : ReceiveSide}
    (hnone : r.receiveBuffer = none → r.receiveCommitted = 0) (alloc : Option (Memory UInt8)) :
    (r.receiveBuffer = none ∧ r.getReceiveBuffer alloc = .ok ({}, r))
      ∨ ∃ b, r.getReceiveBuffer alloc
          = .ok (r.freeView b, { r with receiveBuffer := some b })
        ∧ ∀ b', r.receiveBuffer = some b' → b = b' := by
  cases hb : r.receiveBuffer with
  | some b =>
    refine Or.inr ⟨b, ?_, fun b' hb' => Option.some.inj hb'⟩
    rw [getReceiveBuffer, hb]
    dsimp only
    rw [← hb]
  | none =>
    have hidle := idle_of_none (hnone hb) hb
    cases alloc with
    | none => exact Or.inl ⟨rfl, hidle.getReceiveBuffer_none hb none⟩
    | some memory =>
      refine Or.inr ⟨{ memory, capacity := 4096 }, ?_, fun b' hb' => ?_⟩
      · rw [hidle.getReceiveBuffer_none hb, hidle.freeView_eq]
      · cases hb'

/-! ## What calls keep -/

/-- The states that calls within the rest of the latest view lead to. -/
structure Filling.Inv (s : Filling) : Prop where
  kept : s.Kept
  promised_eq : s.side.receiveBuffer = none → s.promised = 0
  promised_le : ∀ b ∈ s.side.receiveBuffer, s.promised ≤ b.capacity - s.side.receiveCommitted
  window_eq : ∀ w ∈ s.window, w.live = true → ∃ b, s.side.receiveBuffer = some b
    ∧ w.start + w.taken = s.side.receiveCommitted ∧ w.start + w.size = b.capacity
    ∧ ∀ i, w.taken ≤ i → w.contents i = b.memory (w.start + i)

namespace Filling.Inv

variable {s : Filling} (h : s.Inv)
include h

theorem committed_eq (hnone : s.side.receiveBuffer = none) : s.side.receiveCommitted = 0 := by
  have hlen : s.side.receiveCommitted = s.received.length := h.kept.size_eq
  rw [hlen, ← h.kept.buffered_eq, ReceiveSide.buffered_of_none hnone, List.length_nil]

theorem prepareReceive (n : ℕ) (alloc : Option (Memory UInt8)) :
    (s.prepareReceive n alloc).1.Inv ∧ s.Fulfils (.prepareReceive n alloc) := by
  obtain ⟨ok, side, hcall, hprepared⟩ := s.side.prepareReceive_prepared h.committed_eq n alloc
  unfold Filling.prepareReceive
  rw [hcall]
  dsimp only
  cases hprepared with
  | failed =>
    refine ⟨⟨⟨h.kept.buffered_eq, h.kept.size_eq, h.kept.le_capacity⟩, h.promised_eq,
      h.promised_le, ?_⟩, false, s.side, hcall, fun _ => rfl⟩
    rw [if_neg fun hc => Bool.noConfusion hc.1]
    exact h.window_eq
  | room hroom =>
    refine ⟨⟨⟨h.kept.buffered_eq, h.kept.size_eq, h.kept.le_capacity⟩, ?_, ?_, ?_⟩, true, s.side,
      hcall, fun hc => Bool.noConfusion hc⟩
    · intro hnone
      rcases hroom with hzero | ⟨b, hb, -⟩
      · rw [if_pos rfl, h.promised_eq hnone, hzero, Nat.max_self]
      · rw [hnone] at hb
        cases hb
    · intro b hb
      rw [if_pos rfl]
      refine Nat.max_le.mpr ⟨h.promised_le b hb, ?_⟩
      rcases hroom with hzero | ⟨b', hb', hle⟩
      · rw [hzero]
        exact Nat.zero_le _
      · rw [hb'] at hb
        cases hb
        exact hle
    · rw [if_neg fun hc => hc.2 hroom]
      exact h.window_eq
  | grown hroom b hfree hread =>
    refine ⟨⟨⟨?_, h.kept.size_eq, ?_⟩, (fun hnone => nomatch hnone), ?_, ?_⟩, true, _, hcall,
      fun hc => Bool.noConfusion hc⟩
    · rw [← h.kept.buffered_eq, ← hread]
      exact ReceiveSide.buffered_of_some rfl
    · intro b' hb'
      cases hb'
      exact Nat.le_trans (Nat.le_add_right _ _) hfree
    · intro b' hb'
      cases hb'
      rw [if_pos rfl]
      refine Nat.max_le.mpr ⟨?_, Nat.le_sub_of_add_le' hfree⟩
      -- an earlier promise held of a buffer that had less room than the new one
      cases hold : s.side.receiveBuffer with
      | none =>
        rw [h.promised_eq hold]
        exact Nat.zero_le _
      | some b₀ =>
        have hlt : ¬ n ≤ b₀.capacity - s.side.receiveCommitted := fun hle =>
          hroom (Or.inr ⟨b₀, hold, hle⟩)
        have hle := h.promised_le b₀ hold
        show s.promised ≤ b.capacity - s.side.receiveCommitted
        omega
    · rw [if_pos ⟨rfl, hroom⟩]
      intro w hw hlive
      obtain ⟨w', -, rfl⟩ := Option.map_eq_some_iff.mp hw
      cases hlive

theorem getReceiveBuffer (alloc : Option (Memory UInt8)) :
    (s.getReceiveBuffer alloc).1.Inv ∧ s.Fulfils (.getReceiveBuffer alloc) := by
  unfold Filling.getReceiveBuffer
  rcases s.side.getReceiveBuffer_cases h.committed_eq alloc with ⟨hnone, hcall⟩ | ⟨b, hcall, hold⟩
  · rw [hcall]
    refine ⟨⟨⟨h.kept.buffered_eq, h.kept.size_eq, h.kept.le_capacity⟩, fun _ => rfl,
      fun b hb => Nat.zero_le _, fun w hw => nomatch hw⟩, {}, s.side, hcall, ?_⟩
    exact Nat.le_of_eq (h.promised_eq hnone)
  · have hpromised : s.promised ≤ b.capacity - s.side.receiveCommitted := by
      cases hb : s.side.receiveBuffer with
      | none =>
        rw [h.promised_eq hb]
        exact Nat.zero_le _
      | some b' =>
        rw [hold b' hb]
        exact h.promised_le b' hb
    have hcapacity : s.side.receiveCommitted ≤ b.capacity := by
      cases hb : s.side.receiveBuffer with
      | none =>
        rw [h.committed_eq hb]
        exact Nat.zero_le _
      | some b' =>
        rw [hold b' hb]
        exact h.kept.le_capacity b' hb
    rw [hcall]
    refine ⟨⟨⟨?_, h.kept.size_eq, ?_⟩, fun _ => rfl, fun b hb => Nat.zero_le _, ?_⟩,
      _, _, hcall, hpromised⟩
    · rw [← h.kept.buffered_eq]
      show ReceiveSide.buffered { s.side with receiveBuffer := some b } = s.side.buffered
      cases hb : s.side.receiveBuffer with
      | none =>
        rw [ReceiveSide.buffered_of_none hb, ReceiveSide.buffered_of_some rfl]
        show b.memory.read 0 s.side.receiveCommitted = []
        rw [h.committed_eq hb]
        rfl
      | some b' =>
        rw [ReceiveSide.buffered_of_some hb, ← hold b' hb]
        exact ReceiveSide.buffered_of_some rfl
    · intro b' hb'
      cases hb'
      exact hcapacity
    · intro w hw _
      cases hw
      exact ⟨b, rfl, Nat.add_zero _, Nat.add_sub_cancel' hcapacity, fun i _ => rfl⟩

theorem write {w : Window} (hw : s.window = some w) (hlive : w.live = true) {offset : ℕ}
    {data : Bytes} (hoffset : w.taken ≤ offset) : (s.write w offset data).Inv := by
  obtain ⟨b, hb, hstart, hsize, hsame⟩ := h.window_eq w hw hlive
  have hside : (s.write w offset data).side = { s.side with
      receiveBuffer := some { b with memory := b.memory.write (w.start + offset) data } } := by
    unfold Filling.write ReceiveSide.store
    rw [hb]
    rfl
  refine ⟨⟨?_, ?_, ?_⟩, ?_, ?_, ?_⟩
  · have hbefore : (b.memory.write (w.start + offset) data).read 0 s.side.receiveCommitted
        = b.memory.read 0 s.side.receiveCommitted :=
      b.memory.read_write_before (by omega) data
    rw [hside, ReceiveSide.buffered_of_some rfl]
    show (b.memory.write (w.start + offset) data).read 0 s.side.receiveCommitted = s.received
    rw [hbefore, ← ReceiveSide.buffered_of_some hb, h.kept.buffered_eq]
  · rw [hside]
    exact h.kept.size_eq
  · rw [hside]
    intro b' hb'
    cases hb'
    exact h.kept.le_capacity b hb
  · rw [hside]
    intro hnone
    cases hnone
  · rw [hside]
    intro b' hb'
    cases hb'
    exact h.promised_le b hb
  · rw [hside]
    intro w' hw' _
    cases hw'
    refine ⟨_, rfl, hstart, hsize, fun i hi => ?_⟩
    -- the view and the buffer take the write at the same place
    show w.contents.write offset data i = b.memory.write (w.start + offset) data (w.start + i)
    unfold Memory.write
    rw [hsame i hi, Nat.add_sub_add_left]
    exact if_congr (by omega) rfl rfl

theorem commitReceive {bytes : ℕ} (hwithin : s.WithinRest (.commitReceive bytes)) :
    (s.commitReceive bytes).1.Inv ∧ s.Fulfils (.commitReceive bytes) := by
  by_cases hzero : bytes = 0
  · subst hzero
    have hcall : s.side.commitReceive 0 = .ok s.side := by
      unfold ReceiveSide.commitReceive
      split <;> rfl
    have hreceived : s.received ++ (s.window.elim [] fun w => w.contents.read w.taken 0)
        = s.received := by
      cases s.window <;> exact List.append_nil _
    unfold Filling.commitReceive
    rw [hcall]
    refine ⟨⟨⟨?_, ?_, h.kept.le_capacity⟩, h.promised_eq, h.promised_le, ?_⟩, _, hcall⟩
    · exact h.kept.buffered_eq.trans hreceived.symm
    · exact h.kept.size_eq.trans (congrArg List.length hreceived.symm)
    · intro w hw hlive
      obtain ⟨w', hw', rfl⟩ := Option.map_eq_some_iff.mp hw
      exact h.window_eq w' hw' hlive
  obtain ⟨w, hw, hlive, hrest⟩ := hwithin.resolve_left hzero
  obtain ⟨b, hb, hstart, hsize, hsame⟩ := h.window_eq w hw hlive
  have hfits : ¬ b.capacity < s.side.receiveCommitted + bytes := by omega
  have hcall : s.side.commitReceive bytes = .ok { s.side with
      receiveBuffer := some { b with size := s.side.receiveCommitted + bytes }
      receiveCommitted := s.side.receiveCommitted + bytes } := by
    rw [ReceiveSide.commitReceive, hb]
    dsimp only
    rw [if_neg hzero, Buffer.resize, if_neg hfits]
  -- what is committed is what the view holds behind what has been taken of it
  have hread : w.contents.read w.taken bytes = b.memory.read s.side.receiveCommitted bytes := by
    refine Memory.read_congr bytes fun i => ?_
    rw [hsame _ (Nat.le_add_right _ _), ← hstart, Nat.add_assoc]
  have hreceived : b.memory.read 0 (s.side.receiveCommitted + bytes)
      = s.received ++ w.contents.read w.taken bytes := by
    rw [Memory.read_add, Nat.zero_add, ← ReceiveSide.buffered_of_some hb, h.kept.buffered_eq, hread]
  unfold Filling.commitReceive
  rw [hcall, hw]
  refine ⟨⟨⟨?_, ?_, ?_⟩, (fun hnone => absurd hnone (Option.some_ne_none _)), ?_, ?_⟩, _, hcall⟩
  · exact hreceived
  · have hlen := congrArg List.length hreceived
    rw [Memory.length_read] at hlen
    exact hlen
  · intro b' hb'
    cases hb'
    exact Nat.not_lt.mp hfits
  · intro b' hb'
    cases hb'
    have hle := h.promised_le b hb
    show s.promised - bytes ≤ b.capacity - (s.side.receiveCommitted + bytes)
    omega
  · intro w' hw' _
    cases hw'
    refine ⟨_, rfl, ?_, hsize, fun i hi => hsame i (Nat.le_trans (Nat.le_add_right _ _) hi)⟩
    show w.start + (w.taken + bytes) = s.side.receiveCommitted + bytes
    rw [← hstart, Nat.add_assoc]

/-- **One call within the rest of the latest view.** -/
theorem step (a : FillCall) (r : Filling × FillReply) (hwithin : s.WithinRest a)
    (hr : filling.step s a = some r) : r.1.Inv ∧ s.Fulfils a := by
  cases a with
  | prepareReceive n alloc =>
    cases hr
    exact h.prepareReceive n alloc
  | getReceiveBuffer alloc =>
    cases hr
    exact h.getReceiveBuffer alloc
  | write offset data =>
    obtain ⟨w, hw, hstep⟩ := Option.bind_eq_some_iff.mp hr
    split at hstep
    · rename_i hlive
      cases hstep
      exact ⟨h.write hw hlive.1 (hwithin w hw), trivial⟩
    · cases hstep
  | commitReceive bytes =>
    cases hr
    exact h.commitReceive hwithin
  | setReceiveBufferStrategy strategy =>
    cases hr
    exact ⟨⟨⟨h.kept.buffered_eq, h.kept.size_eq, h.kept.le_capacity⟩, h.promised_eq, h.promised_le,
      h.window_eq⟩, trivial⟩

end Filling.Inv

theorem Filling.inv_start (strategy : Option (ℕ → ℕ)) : (Filling.start strategy).Inv where
  kept := ⟨rfl, rfl, fun _ hb => nomatch hb⟩
  promised_eq _ := rfl
  promised_le _ hb := nomatch hb
  window_eq _ hw := nomatch hw

/-! ## Runs -/

/-- **The receive buffer keeps every committed byte across growth.** For every strategy, also
one that changes, and whatever the allocator answers: in a run whose writes and commits stay
within the rest of the latest view, the committed part is always what has been written and
committed, and every call fulfils what it owes. -/
theorem receive_keeps_committed (strategy : Option (ℕ → ℕ)) (calls : List FillCall)
    (hwithin : filling.Along Filling.WithinRest (.start strategy) calls) :
    filling.Always Filling.Kept (.start strategy) calls
      ∧ filling.Along Filling.Fulfils (.start strategy) calls :=
  ⟨Machine.always_of_along (fun _ h => h.kept) (fun _ a r h hc hr => (h.step a r hc hr).1)
      (Filling.inv_start strategy) hwithin,
    Machine.along_of_along (fun _ a r h hc hr => (h.step a r hc hr).1)
      (fun _ a r h hc hr => (h.step a r hc hr).2) (Filling.inv_start strategy) hwithin⟩

/-- Two rounds; the buffer has to grow for the second. -/
def growingRun : List FillCall :=
  [.prepareReceive 2 (some fun _ => 0), .getReceiveBuffer none, .write 0 [1, 2],
    .commitReceive 2, .prepareReceive 3 (some fun _ => 7), .getReceiveBuffer none,
    .write 1 [3], .commitReceive 2]

theorem receive_keeps_committed_grown :
    filling.Always Filling.Kept (.start none) growingRun
      ∧ filling.Along Filling.Fulfils (.start none) growingRun :=
  receive_keeps_committed none growingRun (by decide +kernel)

/-- A run that keeps its commits to the size of the latest view, and loses bytes. -/
def LosesBytes (calls : List FillCall) : Prop :=
  filling.Along Filling.AtMostView (.start none) calls
    ∧ ¬ filling.Always Filling.Kept (.start none) calls

instance : DecidablePred LosesBytes := fun _ => inferInstanceAs (Decidable (_ ∧ _))

/-- The size of the latest view is no bound: the same view can be committed twice, be written
over behind a commit, or be committed when its buffer has been replaced. -/
theorem receive_loses_committed :
    LosesBytes [.prepareReceive 2 (some fun _ => 0), .getReceiveBuffer none, .commitReceive 2,
        .commitReceive 2]
      ∧ LosesBytes [.prepareReceive 2 (some fun _ => 0), .getReceiveBuffer none, .write 0 [1],
        .commitReceive 1, .write 0 [2]]
      ∧ LosesBytes [.prepareReceive 2 (some fun _ => 0), .getReceiveBuffer none, .write 0 [1],
        .prepareReceive 3 (some fun _ => 0), .commitReceive 1] := by
  decide +kernel
