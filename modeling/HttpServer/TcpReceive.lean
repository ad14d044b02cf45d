import HttpServer.Memory
import HttpServer.TcpConnection

/-!
# Receiving on a TCP connection

`Receive` of `core/Tcp/tcp_connection.cpp` and the receive side of
`ConnectionBufferManager`. A block of memory is offered to the socket, the number of bytes
it delivered is committed, and then the bytes are copied into the result and the buffers are
cleared.

The bytes are copied from where `GetReceiveBuffer` points, which is where the *next* bytes
would be received: behind the committed ones. So what is returned is whatever the memory
holds there, and what was delivered is cleared. Where more was delivered than was asked for,
the rest is cleared as well. `receive_faithful_iff` says when the bytes that are returned
are the delivered ones all the same.
-/

/-! ## The receive side of the buffers -/

/-- `Buffer`: a block of memory, `size_` and `capacity_`. What is behind the capacity can be
read as well; it belongs to someone else. -/
structure Buffer where
  memory : Memory UInt8
  size : ℕ := 0
  capacity : ℕ

/-- `Buffer::resize`. -/
def Buffer.resize (b : Buffer) (newSize : ℕ) : Except StdException Buffer :=
  if b.capacity < newSize then .error .outOfRange else .ok { b with size := newSize }

/-- `MutableBufferView` into the receive buffer: the offset of the pointer, if it is not
null, and the size. -/
structure MutableBufferView where
  data : Option ℕ := none
  size : ℕ := 0

/-- `default_receive_strategy`. -/
def defaultReceiveStrategy (current : ℕ) : ℕ := if current = 0 then 4096 else current * 2

/-- `ConnectionBufferManager`, as far as receiving goes. -/
structure ReceiveSide where
  receiveBuffer : Option Buffer := none
  receiveCommitted : ℕ := 0
  receiveStrategy : ℕ → ℕ := defaultReceiveStrategy

namespace ReceiveSide

variable (r : ReceiveSide)

/-- `PrepareReceive`. `alloc` is the outcome of `CreateBuffer`: the memory it returns. -/
def prepareReceive (expectedSize : ℕ) (alloc : Option (Memory UInt8)) :
    Except StdException (Bool × ReceiveSide) :=
  if expectedSize = 0 then .ok (true, r)
  else
    match r.receiveBuffer with
    | none =>
      match alloc with
      | none => .ok (false, r)
      | some memory =>
        .ok (true, { r with
          receiveBuffer := some { memory, capacity := expectedSize }, receiveCommitted := 0 })
    | some buffer =>
      let freeSpace := buffer.capacity - r.receiveCommitted
      if expectedSize ≤ freeSpace then .ok (true, r)
      else
        let newCapacity :=
          max (r.receiveStrategy buffer.capacity) (r.receiveCommitted + expectedSize)
        match alloc with
        | none => .ok (false, r)
        | some memory =>
          let memory := memory.write 0 (buffer.memory.read 0 r.receiveCommitted)
          match Buffer.resize { memory, capacity := newCapacity } r.receiveCommitted with
          | .error e => .error e
          | .ok buffer => .ok (true, { r with receiveBuffer := some buffer })

/-- The view of `GetReceiveBuffer` once there is a buffer: the part that is still free. -/
def freeView (buffer : Buffer) : MutableBufferView :=
  ⟨some r.receiveCommitted, buffer.capacity - r.receiveCommitted⟩

/-- `GetReceiveBuffer`, which is `noexcept`: an exception would end the program. -/
def getReceiveBuffer (alloc : Option (Memory UInt8)) :
    Except StdException (MutableBufferView × ReceiveSide) :=
  match r.receiveBuffer with
  | some buffer => .ok (r.freeView buffer, r)
  | none =>
    match r.prepareReceive 4096 alloc with
    | .error e => .error e
    | .ok (_, r') =>
      match r'.receiveBuffer with
      | none => .ok ({}, r')
      | some buffer => .ok (r'.freeView buffer, r')

/-- `CommitReceive`. -/
def commitReceive (bytes : ℕ) : Except StdException ReceiveSide :=
  match r.receiveBuffer with
  | none => .ok r
  | some buffer =>
    if bytes = 0 then .ok r
    else
      let receiveCommitted := r.receiveCommitted + bytes
      match buffer.resize receiveCommitted with
      | .error e => .error e
      | .ok buffer => .ok { r with receiveBuffer := some buffer, receiveCommitted }

/-- What the socket writes through a view. -/
def store (view : MutableBufferView) (data : Bytes) : ReceiveSide :=
  match view.data with
  | none => r
  | some offset =>
    { r with
      receiveBuffer := r.receiveBuffer.map fun b =>
        { b with memory := b.memory.write offset data } }

/-- The copy out of a view. -/
def load (offset n : ℕ) : Bytes :=
  match r.receiveBuffer with
  | none => []
  | some buffer => buffer.memory.read offset n

/-- The part of `ClearAll` that is about receiving. -/
def clear : ReceiveSide := { r with receiveBuffer := none, receiveCommitted := 0 }

/-- **The bytes that have been received and not been read.** -/
def buffered : Bytes := r.load 0 r.receiveCommitted

end ReceiveSide

/-- The part of `ClearAll` that is about sending. -/
def ConnectionBufferManager.clear (b : ConnectionBufferManager) : ConnectionBufferManager :=
  { b with sendQueue := [], sendConsumed := 0 }

/-! ## The source -/

/-- What the io handler's `Recv` answers: an error, or the bytes it writes into the offered
region (those that fit if there are more). -/
inductive RecvOutcome
  | failed (e : SocketError)
  | received (data : Bytes)

/-- What a call of `Receive` comes to. -/
inductive ReceiveResult
  | ok (data : Bytes)
  | error (e : SocketError)
  | raised (e : StdException)

/-- `TCPConnection`, as far as receiving goes, around what is there of it for sending. -/
structure TCPReceiver where
  conn : TCPConnection
  side : ReceiveSide
  bytesReceived : UInt64 := 0

/-- What a call did: the connection afterwards, the bytes that `Recv` delivered, and the
result. -/
structure Receiving where
  conn : TCPReceiver
  delivered : Bytes
  result : ReceiveResult

namespace TCPReceiver

variable (c : TCPReceiver)

/-- `GetReceiveBuffer`, and `PrepareReceive` if it has no room: the region that is offered to
`Recv`. -/
def offer (maxLen : ℕ) (alloc : ℕ → Option (Memory UInt8)) :
    Except StdException (MutableBufferView × ReceiveSide) :=
  match c.side.getReceiveBuffer (alloc 0) with
  | .error e => .error e
  | .ok (buf, side) =>
    if buf.size = 0 then
      match side.prepareReceive maxLen (alloc 1) with
      | .error e => .error e
      | .ok (_, side) => side.getReceiveBuffer (alloc 2)
    else .ok (buf, side)

/-- The end of `Receive`: the copy out of the buffer. -/
def copyOut (maxLen : ℕ) (alloc : Option (Memory UInt8)) (delivered : Bytes) : Receiving :=
  let available := c.side.receiveCommitted
  let toRead := min maxLen available
  match c.side.getReceiveBuffer alloc with
  | .error e => ⟨c, delivered, .raised e⟩
  | .ok (view, side) =>
    match view.data with
    | none => ⟨{ c with side }, delivered, .ok (List.replicate toRead 0)⟩
    | some offset =>
      ⟨{ c with
          conn := { c.conn with connectionBuffer := c.conn.connectionBuffer.clear }
          side := side.clear },
        delivered, .ok (side.load offset toRead)⟩

/-- `Receive(size_t)`. `alloc 0` to `alloc 3` are the outcomes of the allocations on the way,
`io` is what the socket answers if it is asked. -/
def receive (maxLen : ℕ) (alloc : ℕ → Option (Memory UInt8)) (io : RecvOutcome) : Receiving :=
  if maxLen = 0 then ⟨c, [], .ok []⟩
  else if c.side.receiveCommitted = 0 then
    match c.offer maxLen alloc with
    | .error e => ⟨c, [], .raised e⟩
    | .ok (buf, side) =>
      match io with
      | .failed e => ⟨{ c with side }, [], .error e⟩
      | .received data =>
        let data := data.take buf.size
        match (side.store buf data).commitReceive data.length with
        | .error e => ⟨{ c with side }, data, .raised e⟩
        | .ok side =>
          copyOut { c with side, bytesReceived := c.bytesReceived + .ofNat data.length }
            maxLen (alloc 3) data
  else c.copyOut maxLen (alloc 3) []

/-- `Receive(void*, size_t)`: what is copied into the caller's buffer is the result. -/
def receiveInto (len : ℕ) (alloc : ℕ → Option (Memory UInt8)) (io : RecvOutcome) : Receiving :=
  let r := c.receive len alloc io
  match r.result with
  | .ok s =>
    let n := if len < s.length then len else s.length
    { r with result := .ok (s.take n) }
  | _ => r

end TCPReceiver

/-! ## Runs of calls -/

/-- The two overloads. -/
inductive ReceiveOverload
  | string
  | buffer

/-- A call of `Receive` with all that the environment answers in it. -/
structure ReceiveCall where
  overload : ReceiveOverload
  maxLen : ℕ
  alloc : ℕ → Option (Memory UInt8)
  io : RecvOutcome

/-- A connection with what it has been delivered and what it has returned, each string with
the length that was asked for. -/
structure ReceiveRun where
  conn : TCPReceiver
  delivered : Bytes := []
  returned : List (ℕ × Bytes) := []

/-- One call. -/
def ReceiveCall.perform (a : ReceiveCall) (c : TCPReceiver) : Receiving :=
  match a.overload with
  | .string => c.receive a.maxLen a.alloc a.io
  | .buffer => c.receiveInto a.maxLen a.alloc a.io

/-- The connection that is read from. -/
def receiver : Machine ReceiveRun ReceiveCall ReceiveResult where
  step s a :=
    let r := a.perform s.conn
    let returned :=
      match r.result with
      | .ok data => s.returned ++ [(a.maxLen, data)]
      | _ => s.returned
    some (⟨r.conn, s.delivered ++ r.delivered, returned⟩, r.result)

/-- **A faithful stream read**: what has been returned, with what is still buffered behind
it, is what has been delivered, and no string is longer than it should be. -/
def FaithfulRead (s : ReceiveRun) : Prop :=
  (s.returned.map Prod.snd).flatten ++ s.conn.side.buffered = s.delivered
    ∧ ∀ r ∈ s.returned, r.2.length ≤ r.1

/-! ## One call -/

/-- Between calls nothing is committed, and the buffer that may be left has room. -/
structure ReceiveSide.Idle (r : ReceiveSide) : Prop where
  committed_eq : r.receiveCommitted = 0
  capacity_pos : ∀ b ∈ r.receiveBuffer, 0 < b.capacity

/-- The buffer that is offered to `Recv`: the one that is there, or one that can be
allocated. -/
def ReceiveSide.region (r : ReceiveSide) (maxLen : ℕ) (alloc : ℕ → Option (Memory UInt8)) :
    Option Buffer :=
  match r.receiveBuffer with
  | some b => some b
  | none =>
    match alloc 0 with
    | some memory => some { memory, capacity := 4096 }
    | none =>
      match alloc 1 with
      | some memory => some { memory, capacity := maxLen }
      | none => (alloc 2).map fun memory => { memory, capacity := 4096 }

theorem ReceiveSide.idle_of_none {r : ReceiveSide} (hcommitted : r.receiveCommitted = 0)
    (hnone : r.receiveBuffer = none) : r.Idle where
  committed_eq := hcommitted
  capacity_pos b hb := by
    rw [hnone] at hb
    cases hb

namespace ReceiveSide.Idle

variable {r : ReceiveSide} (h : r.Idle)
include h

theorem buffered_eq : r.buffered = [] := by
  rw [buffered, h.committed_eq, load]
  split <;> rfl

/-- The region has room. -/
theorem capacity_region {maxLen : ℕ} (hpos : maxLen ≠ 0) {alloc : ℕ → Option (Memory UInt8)}
    {b : Buffer} (hb : r.region maxLen alloc = some b) : 0 < b.capacity := by
  unfold region at hb
  cases hr : r.receiveBuffer with
  | some b' =>
    rw [hr] at hb
    cases hb
    exact h.capacity_pos b hr
  | none =>
    rw [hr] at hb
    dsimp only at hb
    split at hb
    · cases hb
      exact Nat.succ_pos _
    · split at hb
      · cases hb
        exact Nat.pos_of_ne_zero hpos
      · obtain ⟨memory, -, rfl⟩ := Option.map_eq_some_iff.mp hb
        exact Nat.succ_pos _

/-- An idle side with another buffer that has room. -/
theorem with_buffer (buffer : Option Buffer) (hbuffer : ∀ b ∈ buffer, 0 < b.capacity) :
    { r with receiveBuffer := buffer }.Idle :=
  ⟨h.committed_eq, hbuffer⟩

/-- The view of the free part of a buffer is all of it. -/
theorem freeView_eq (b : Buffer) : r.freeView b = ⟨some 0, b.capacity⟩ := by
  rw [freeView, h.committed_eq, Nat.sub_zero]

theorem getReceiveBuffer_some {b : Buffer} (hb : r.receiveBuffer = some b)
    (alloc : Option (Memory UInt8)) :
    r.getReceiveBuffer alloc = .ok (⟨some 0, b.capacity⟩, r) := by
  rw [getReceiveBuffer, hb]
  dsimp only
  rw [h.freeView_eq]

/-- Without a buffer one is prepared. -/
theorem prepareReceive_none (hnone : r.receiveBuffer = none) {expectedSize : ℕ}
    (hpos : expectedSize ≠ 0) (alloc : Option (Memory UInt8)) :
    ∃ ok, r.prepareReceive expectedSize alloc = .ok (ok, { r with
      receiveBuffer := alloc.map fun memory => { memory, capacity := expectedSize } }) := by
  obtain ⟨receiveBuffer, receiveCommitted, receiveStrategy⟩ := r
  obtain rfl : receiveCommitted = 0 := h.committed_eq
  obtain rfl : receiveBuffer = none := hnone
  unfold prepareReceive
  rw [if_neg hpos]
  cases alloc with
  | none => exact ⟨false, rfl⟩
  | some memory => exact ⟨true, rfl⟩

theorem getReceiveBuffer_none (hnone : r.receiveBuffer = none)
    (alloc : Option (Memory UInt8)) :
    r.getReceiveBuffer alloc = .ok (match alloc with
      | none => ({}, r)
      | some memory =>
        (⟨some 0, 4096⟩, { r with receiveBuffer := some { memory, capacity := 4096 } })) := by
  obtain ⟨ok, hprepare⟩ := h.prepareReceive_none hnone (show 4096 ≠ 0 by omega) alloc
  unfold getReceiveBuffer
  rw [hnone, hprepare]
  cases alloc with
  | none =>
    obtain ⟨receiveBuffer, receiveCommitted, receiveStrategy⟩ := r
    obtain rfl : receiveBuffer = none := hnone
    rfl
  | some memory =>
    dsimp only [Option.map_some]
    rw [(h.with_buffer (some { memory, capacity := 4096 }) (by
      intro b hb
      cases hb
      exact Nat.succ_pos _)).freeView_eq]

end ReceiveSide.Idle

namespace TCPReceiver

variable {c : TCPReceiver} (h : c.side.Idle)
include h

/-- **What is offered to the socket** is the region, from its beginning. -/
theorem offer_eq {maxLen : ℕ} (hpos : maxLen ≠ 0) (alloc : ℕ → Option (Memory UInt8)) :
    c.offer maxLen alloc = .ok ((match c.side.region maxLen alloc with
        | none => {}
        | some b => ⟨some 0, b.capacity⟩),
      { c.side with receiveBuffer := c.side.region maxLen alloc }) := by
  cases hb : c.side.receiveBuffer with
  | some b =>
    have hregion : c.side.region maxLen alloc = some b := by rw [ReceiveSide.region, hb]
    have hne : b.capacity ≠ 0 := Nat.ne_of_gt (h.capacity_pos b hb)
    rw [offer, h.getReceiveBuffer_some hb, hregion]
    dsimp only
    rw [if_neg hne, ← hb]
  | none =>
    rw [offer, h.getReceiveBuffer_none hb, ReceiveSide.region, hb]
    cases halloc : alloc 0 with
    | some memory =>
      dsimp only
      rw [if_neg (by omega)]
    | none =>
      obtain ⟨ok, hprepare⟩ := h.prepareReceive_none hb hpos (alloc 1)
      dsimp only
      rw [if_pos rfl, hprepare]
      dsimp only
      cases halloc₁ : alloc 1 with
      | some memory =>
        have hidle := h.with_buffer (some { memory, capacity := maxLen }) (by
          intro b hb
          cases hb
          exact Nat.pos_of_ne_zero hpos)
        exact hidle.getReceiveBuffer_some rfl _
      | none =>
        have hidle := h.with_buffer none (fun b hb => nomatch hb)
        rw [Option.map_none, hidle.getReceiveBuffer_none rfl]
        cases alloc 2 <;> rfl

/-- The socket answers with an error. -/
theorem receive_failed {maxLen : ℕ} (hpos : maxLen ≠ 0) (alloc : ℕ → Option (Memory UInt8))
    (e : SocketError) :
    c.receive maxLen alloc (.failed e)
      = ⟨{ c with side := { c.side with receiveBuffer := c.side.region maxLen alloc } }, [],
          .error e⟩ := by
  rw [receive, if_neg hpos, if_pos h.committed_eq, offer_eq h hpos]

/-- **The socket delivers**: what is returned are the bytes that the memory holds behind the
delivered ones, and these are cleared. -/
theorem receive_received {maxLen : ℕ} (hpos : maxLen ≠ 0) {alloc : ℕ → Option (Memory UInt8)}
    (data : Bytes) {b : Buffer} (hb : c.side.region maxLen alloc = some b) :
    ∃ c' : TCPReceiver, c'.side = { c.side with receiveBuffer := none, receiveCommitted := 0 }
      ∧ c'.conn = { c.conn with connectionBuffer := c.conn.connectionBuffer.clear }
      ∧ c.receive maxLen alloc (.received data)
        = ⟨c', data.take b.capacity, .ok (b.memory.read (data.take b.capacity).length
            (min maxLen (data.take b.capacity).length))⟩ := by
  set d := data.take b.capacity with hd
  have hle : d.length ≤ b.capacity := List.length_take_le _ _
  -- the buffer once the delivered bytes are committed
  have hcommit : ∃ size, ({ c.side with receiveBuffer := some b }.store ⟨some 0, b.capacity⟩
      d).commitReceive d.length = .ok { c.side with
        receiveBuffer := some { b with memory := b.memory.write 0 d, size }
        receiveCommitted := d.length } := by
    unfold ReceiveSide.commitReceive ReceiveSide.store
    dsimp only [Option.map_some]
    split
    · rename_i h0
      refine ⟨b.size, ?_⟩
      rw [h0, ← h.committed_eq]
    · refine ⟨d.length, ?_⟩
      rw [h.committed_eq, Nat.zero_add, Buffer.resize, if_neg (Nat.not_lt.mpr hle)]
  obtain ⟨size, hcommit⟩ := hcommit
  rw [receive, if_neg hpos, if_pos h.committed_eq, offer_eq h hpos, hb]
  dsimp only
  rw [← hd, hcommit]
  refine ⟨⟨{ c.conn with connectionBuffer := c.conn.connectionBuffer.clear },
    { c.side with receiveBuffer := none, receiveCommitted := 0 },
    c.bytesReceived + .ofNat d.length⟩, rfl, rfl, ?_⟩
  have hread : (b.memory.write 0 d).read d.length (min maxLen d.length)
      = b.memory.read d.length (min maxLen d.length) :=
    Memory.read_write_behind b.memory (by omega) _
  unfold copyOut ReceiveSide.getReceiveBuffer ReceiveSide.freeView ReceiveSide.load
  dsimp only
  rw [hread]
  rfl

/-- No memory, no room, no bytes. -/
theorem receive_no_region {maxLen : ℕ} (hpos : maxLen ≠ 0)
    {alloc : ℕ → Option (Memory UInt8)} (data : Bytes)
    (hnone : c.side.region maxLen alloc = none) :
    ∃ c' : TCPReceiver, c'.side.Idle
      ∧ c'.conn = (if alloc 3 = none then c.conn
        else { c.conn with connectionBuffer := c.conn.connectionBuffer.clear })
      ∧ c.receive maxLen alloc (.received data) = ⟨c', [], .ok []⟩ := by
  have hside := h.with_buffer none (fun b hb => nomatch hb)
  rw [receive, if_neg hpos, if_pos h.committed_eq, offer_eq h hpos, hnone]
  dsimp only [List.take_zero, ReceiveSide.store, ReceiveSide.commitReceive]
  unfold copyOut
  dsimp only
  rw [hside.getReceiveBuffer_none rfl, h.committed_eq, Nat.min_zero]
  cases alloc 3 with
  | none =>
    refine ⟨_, ?_, ?_, rfl⟩
    · exact ReceiveSide.idle_of_none rfl rfl
    · exact (if_pos rfl).symm
  | some memory =>
    refine ⟨_, ?_, ?_, rfl⟩
    · exact ReceiveSide.idle_of_none rfl rfl
    · exact (if_neg (Option.some_ne_none memory)).symm

end TCPReceiver

/-! ## When a call is faithful -/

/-- **A faithful call**: nothing is asked for, or the socket delivers nothing, or it delivers
no more than was asked for and the memory behind the delivered bytes holds the same bytes. -/
def ReceiveCall.Faithful (a : ReceiveCall) (c : TCPReceiver) : Prop :=
  a.maxLen = 0 ∨ ∀ data b, a.io = .received data →
    c.side.region a.maxLen a.alloc = some b →
    (data.take b.capacity).length ≤ a.maxLen
      ∧ b.memory.read (data.take b.capacity).length (data.take b.capacity).length
        = data.take b.capacity

/-- **One call**: it ends with an error, without bytes, or returns a string that is not too
long, which is what was delivered exactly if the call is faithful. -/
structure ReceiveCall.Outcome (a : ReceiveCall) (c : TCPReceiver) (r : Receiving) : Prop where
  idle : r.conn.side.Idle
  result : (∃ e, r.result = .error e ∧ r.delivered = [] ∧ a.Faithful c)
    ∨ ∃ s, r.result = .ok s ∧ s.length ≤ a.maxLen ∧ (s = r.delivered ↔ a.Faithful c)

namespace ReceiveCall

variable {c : TCPReceiver} (h : c.side.Idle)
include h

theorem receive_outcome (a : ReceiveCall) : a.Outcome c (c.receive a.maxLen a.alloc a.io) := by
  by_cases hpos : a.maxLen = 0
  · rw [TCPReceiver.receive, if_pos hpos]
    exact ⟨h, Or.inr ⟨[], rfl, Nat.zero_le _, iff_of_true rfl (Or.inl hpos)⟩⟩
  cases hio : a.io with
  | failed e =>
    rw [TCPReceiver.receive_failed h hpos]
    refine ⟨h.with_buffer _ fun b hb => h.capacity_region hpos hb, Or.inl ⟨e, rfl, rfl, Or.inr ?_⟩⟩
    intro data b hio'
    rw [hio] at hio'
    cases hio'
  | received data =>
    cases hb : c.side.region a.maxLen a.alloc with
    | none =>
      obtain ⟨c', hidle, -, hreceive⟩ := TCPReceiver.receive_no_region h hpos data hb
      rw [hreceive]
      refine ⟨hidle, Or.inr ⟨[], rfl, Nat.zero_le _, iff_of_true rfl (Or.inr ?_)⟩⟩
      intro data' b' _ hb'
      rw [hb] at hb'
      cases hb'
    | some b =>
      obtain ⟨c', hside, -, hreceive⟩ := TCPReceiver.receive_received h hpos data hb
      rw [hreceive]
      refine ⟨ReceiveSide.idle_of_none (by rw [hside]) (by rw [hside]), Or.inr
        ⟨_, rfl, by rw [Memory.length_read]; exact Nat.min_le_left _ _, ?_⟩⟩
      dsimp only
      constructor
      · intro hs
        have hlen := congrArg List.length hs
        rw [Memory.length_read] at hlen
        have hle : (data.take b.capacity).length ≤ a.maxLen := by omega
        refine Or.inr fun data' b' hio' hb' => ?_
        rw [hio] at hio'
        rw [hb] at hb'
        cases hio'
        cases hb'
        rw [hlen] at hs
        exact ⟨hle, hs⟩
      · rintro (h0 | hfaithful)
        · exact absurd h0 hpos
        · obtain ⟨hle, hs⟩ := hfaithful data b hio hb
          rw [Nat.min_eq_right hle]
          exact hs

theorem perform_outcome (a : ReceiveCall) : a.Outcome c (a.perform c) := by
  obtain ⟨hidle, hresult⟩ := receive_outcome h a
  unfold perform
  cases a.overload with
  | string => exact ⟨hidle, hresult⟩
  | buffer =>
    dsimp only
    unfold TCPReceiver.receiveInto
    dsimp only
    rcases hresult with ⟨e, he, hd, hf⟩ | ⟨s, hs, hlen, hiff⟩
    · rw [he]
      exact ⟨hidle, Or.inl ⟨e, he, hd, hf⟩⟩
    · have htake : s.take (if a.maxLen < s.length then a.maxLen else s.length) = s := by
        rw [if_neg (Nat.not_lt.mpr hlen), List.take_length]
      rw [hs]
      dsimp only
      rw [htake]
      exact ⟨hidle, Or.inr ⟨s, rfl, hlen, hiff⟩⟩

end ReceiveCall

/-! ## Runs -/

/-- A new connection that has not been read from. -/
def ReceiveRun.start (conn : TCPConnection) (receiveStrategy : ℕ → ℕ) : ReceiveRun :=
  { conn := { conn, side := { receiveStrategy } } }

/-- What faithful calls keep: nothing is buffered between them. -/
structure ReceiveRun.Inv (s : ReceiveRun) : Prop where
  idle : s.conn.side.Idle
  returned_eq : (s.returned.map Prod.snd).flatten = s.delivered
  length_le : ∀ r ∈ s.returned, r.2.length ≤ r.1

/-- **When `Receive` is a faithful stream read.** For every connection and every sequence of
calls of both overloads with any lengths, and whatever the allocator and the socket answer:
what is returned is a prefix of what is delivered with the rest still buffered, and no string
is too long, throughout the run, exactly if every call of the run is faithful. -/
theorem receive_faithful_iff (conn : TCPConnection) (receiveStrategy : ℕ → ℕ)
    (calls : List ReceiveCall) :
    receiver.Always FaithfulRead (.start conn receiveStrategy) calls
      ↔ receiver.Along (fun s a => a.Faithful s.conn) (.start conn receiveStrategy) calls := by
  refine Machine.always_iff_along (I := ReceiveRun.Inv) ?_ ?_ ?_
    ⟨ReceiveSide.idle_of_none rfl rfl, rfl, fun r hr => nomatch hr⟩
  · intro s hs
    refine ⟨?_, hs.length_le⟩
    rw [hs.idle.buffered_eq, List.append_nil, hs.returned_eq]
  · rintro s a r hs hfaithful hstep
    obtain ⟨hidle, hresult⟩ := ReceiveCall.perform_outcome hs.idle a
    cases hstep
    rcases hresult with ⟨e, he, hd, -⟩ | ⟨str, hstr, hlen, hiff⟩
    · refine ⟨hidle, ?_, ?_⟩
      · dsimp only
        rw [he, hd, List.append_nil]
        exact hs.returned_eq
      · dsimp only
        rw [he]
        exact hs.length_le
    · refine ⟨hidle, ?_, ?_⟩
      · dsimp only
        rw [hstr, ← hiff.mpr hfaithful, ← hs.returned_eq]
        simp
      · dsimp only
        rw [hstr]
        intro r hr
        rcases List.mem_append.mp hr with hr | hr
        · exact hs.length_le r hr
        · cases List.mem_singleton.mp hr
          exact hlen
  · rintro s a r hs hfaithful hstep ⟨hread, -⟩
    obtain ⟨hidle, hresult⟩ := ReceiveCall.perform_outcome hs.idle a
    cases hstep
    rcases hresult with ⟨e, -, -, hf⟩ | ⟨str, hstr, -, hiff⟩
    · exact hfaithful hf
    · refine hfaithful (hiff.mp ?_)
      dsimp only at hread
      rw [hstr, hidle.buffered_eq, List.append_nil, ← hs.returned_eq] at hread
      simpa using hread

/-- A connection whose memory is all zeros is delivered `hi` and returns two zeros. -/
theorem receive_not_faithful :
    ¬ receiver.Always FaithfulRead (.start (.ofFd 3 1024) defaultReceiveStrategy)
      [⟨.string, 4, fun _ => some fun _ => 0, .received (lit "hi")⟩] := by
  intro h
  have hread := (h.2 _ rfl).1
  revert hread
  decide
