import HttpServer.Memory
import HttpServer.TcpConnection

/-!
# The connection over a socket object

`TcpConnection` of `core/Connection/connection.cpp` and the components it is made of: the
state machine, the queue of what is to be sent and the buffer for what is received. (The
class `TCPConnection` of `core/Tcp` is another one.) Every method holds `mutex_` from its
first line to its last, so calls do not overlap and each is a function of the connection.

The socket is the environment. What `socket_->send`, `recv` and `connect` return, and what
`get_error` says after a failure, is an argument of the method that calls them; a method
that calls `send` in a loop takes the list of the answers, and is finished when the list is
just what it asks for.
-/

/-! ## The socket -/

/-- `EAGAIN`, which is `EWOULDBLOCK` as well. -/
def eagain : ℕ := 11

/-- `EINPROGRESS`. -/
def einprogress : ℕ := 115

/-- `EBADF`. -/
def ebadf : ℕ := 9

/-- `EINVAL`. -/
def einval : ℕ := 22

/-- What `socket_->send` answers: `-1`, with what `get_error` says then, or how many bytes
it took. -/
inductive SendAnswer
  | failed (err : ℕ)
  | sent (n : ℕ)
  deriving DecidableEq, Repr

/-- The socket takes no more than it is offered. -/
def SendAnswer.Fits (len : ℕ) : SendAnswer → Prop
  | .failed _ => True
  | .sent n => n ≤ len

instance (len : ℕ) : DecidablePred (SendAnswer.Fits len)
  | .failed _ => inferInstanceAs (Decidable True)
  | .sent n => inferInstanceAs (Decidable (n ≤ len))

/-- What `socket_->recv` answers: `-1`, with what `get_error` says then, or the bytes that it
stored. There are none at the end of the stream. -/
inductive RecvAnswer
  | failed (err : ℕ)
  | received (data : Bytes)
  deriving DecidableEq, Repr

/-- What the kernel stores fits into the region. -/
def RecvAnswer.Fits (size : ℕ) : RecvAnswer → Prop
  | .failed _ => True
  | .received data => data.length ≤ size

instance (size : ℕ) : DecidablePred (RecvAnswer.Fits size)
  | .failed _ => inferInstanceAs (Decidable True)
  | .received data => inferInstanceAs (Decidable (data.length ≤ size))

/-- What `socket_->connect` answers, and what `get_error` says afterwards. -/
structure ConnectAnswer where
  accepted : Bool
  err : ℕ
  deriving DecidableEq, Repr

/-- `SocketImpl::connect` on a socket that is valid or not and an address that can be parsed
or not, and what `get_error` says then; `result` is the error of the io handler's `Connect`,
`none` being success. A connection in progress counts as accepted. `get_error` asks the system
where no error is stored, and gets `soError`. -/
def SocketImpl.connect (valid address : Bool) (result : Option ℕ) (soError : ℕ) :
    ConnectAnswer :=
  if !valid then ⟨false, ebadf⟩
  else if !address then ⟨false, einval⟩
  else
    match result with
    | none => ⟨true, soError⟩
    | some err =>
      if err = einprogress then ⟨true, err⟩
      else if err ≠ 0 then ⟨false, err⟩
      else ⟨false, soError⟩

/-- Where the io handler's `Connect` fails with errors only, so does `SocketImpl::connect`, and
never with `EINPROGRESS`. -/
theorem SocketImpl.err_connect {valid address : Bool} {result : Option ℕ} {soError : ℕ}
    (hresult : result ≠ some 0) (h : (connect valid address result soError).accepted = false) :
    (connect valid address result soError).err ≠ 0
      ∧ (connect valid address result soError).err ≠ einprogress := by
  unfold connect at h ⊢
  cases valid with
  | false => exact (by decide : ebadf ≠ 0 ∧ ebadf ≠ einprogress)
  | true =>
    cases address with
    | false => exact (by decide : einval ≠ 0 ∧ einval ≠ einprogress)
    | true =>
      cases result with
      | none => exact absurd h (by simp)
      | some err =>
        have hzero : err ≠ 0 := fun hz => hresult (congrArg some hz)
        by_cases he : err = einprogress
        · simp [he] at h
        · simp [he, hzero]

/-! ## The state machine -/

namespace StateMachine

/-- `SetConnecting`. -/
def setConnecting (state : ConnectionState) : ConnectionState × Bool :=
  if state = .disconnected then (.connecting, true) else (state, false)

/-- `SetConnected`. -/
def setConnected (state : ConnectionState) : ConnectionState × Bool :=
  if state = .connecting ∨ state = .connected then (.connected, true) else (state, false)

/-- `SetDisconnected`. -/
def setDisconnected (_state : ConnectionState) : ConnectionState := .disconnected

/-- `SetError`. -/
def setError (_state : ConnectionState) : ConnectionState := .error

/-- `IsConnected`. -/
def isConnected (state : ConnectionState) : Bool := state == .connected

/-- The test with which most methods begin. -/
theorem not_isConnected_iff {state : ConnectionState} :
    (!isConnected state) = true ↔ state ≠ .connected := by
  cases state <;> decide

end StateMachine

/-! ## The send queue -/

/-- `SendBufferQueue::Chunk`. -/
structure Chunk where
  data : Bytes
  offset : ℕ
  deriving DecidableEq, Repr

/-- What is left of a chunk. -/
def Chunk.rest (chunk : Chunk) : Bytes := chunk.data.drop chunk.offset

/-- `SendBufferQueue`. -/
structure SendBufferQueue where
  chunks : List Chunk := []
  totalBytes : ℕ := 0
  deriving DecidableEq, Repr

namespace SendBufferQueue

/-- `EnqueueSend`. -/
def enqueueSend (q : SendBufferQueue) (view : Bytes) : SendBufferQueue × Bool :=
  if view.length = 0 then (q, true)
  else (⟨q.chunks ++ [⟨view, 0⟩], q.totalBytes + view.length⟩, true)

/-- `PeekSend`: the contents of the view. -/
def peekSend (q : SendBufferQueue) : Bytes :=
  match q.chunks with
  | [] => []
  | front :: _ => front.data.drop front.offset

/-- `ConsumeSend`. -/
def consumeSend (q : SendBufferQueue) (bytes : ℕ) : SendBufferQueue :=
  match q.chunks with
  | [] => q
  | front :: rest =>
    if bytes = 0 then q
    else
      let consumed := min bytes (front.data.length - front.offset)
      let offset := front.offset + consumed
      let totalBytes := q.totalBytes - consumed
      if offset = front.data.length then ⟨rest, totalBytes⟩
      else ⟨{ front with offset } :: rest, totalBytes⟩

/-- `IsSendQueueEmpty`. -/
def isSendQueueEmpty (q : SendBufferQueue) : Bool := q.chunks.isEmpty

/-- `GetSendQueueSize`. -/
def getSendQueueSize (q : SendBufferQueue) : ℕ := q.totalBytes

/-- `ClearAll`. -/
def clearAll (_q : SendBufferQueue) : SendBufferQueue := ⟨[], 0⟩

/-- What the loop of `Flush` and of `onWriteEvent` comes to: the queue it leaves, what the
socket took and in how many pieces, and the error that stopped it. -/
structure Drained where
  queue : SendBufferQueue
  wire : Bytes := []
  sends : ℕ := 0
  stop : Option ℕ := none
  deriving DecidableEq, Repr

/-- The loop leaves off: the queue is empty, or has an empty chunk in front. -/
def Done (q : SendBufferQueue) : Prop := q.isSendQueueEmpty = true ∨ q.peekSend.length = 0

instance (q : SendBufferQueue) : Decidable q.Done := inferInstanceAs (Decidable (_ ∨ _))

/-- **The loop that drains the queue**: peek, send, consume, until the queue is empty or the
socket fails. `none` if the answers are not the ones it asks for. -/
def drain (q : SendBufferQueue) : List SendAnswer → Option Drained
  | [] => if q.Done then some { queue := q } else none
  | .failed err :: answers =>
    if ¬ q.Done ∧ answers = [] then some { queue := q, stop := some err } else none
  | .sent n :: answers =>
    if ¬ q.Done ∧ n ≤ q.peekSend.length then
      ((q.consumeSend n).drain answers).map fun d =>
        { d with wire := q.peekSend.take n ++ d.wire, sends := d.sends + 1 }
    else none

/-- **The bytes still to be sent**, in order. -/
def pending (q : SendBufferQueue) : Bytes := (q.chunks.map Chunk.rest).flatten

/-- The states of the class: every chunk has something left, and `total_bytes_` is right. -/
structure WellFormed (q : SendBufferQueue) : Prop where
  offset_lt : ∀ chunk ∈ q.chunks, chunk.offset < chunk.data.length
  totalBytes_eq : q.totalBytes = q.pending.length

theorem wellFormed_empty : ({} : SendBufferQueue).WellFormed :=
  ⟨fun _ hmem => absurd hmem List.not_mem_nil, rfl⟩

/-- What is in front is the beginning of what is pending. -/
theorem take_peekSend {q : SendBufferQueue} {n : ℕ} (hn : n ≤ q.peekSend.length) :
    q.peekSend.take n = q.pending.take n := by
  unfold peekSend at hn ⊢
  cases hq : q.chunks with
  | nil =>
    rw [pending, hq]
    rfl
  | cons front rest =>
    rw [hq] at hn
    rw [pending, hq, List.map_cons, List.flatten_cons]
    exact (List.take_append_of_le_length hn).symm

namespace WellFormed

variable {q : SendBufferQueue} (h : q.WellFormed)
include h

/-- `GetSendQueueSize` is the number of pending bytes. -/
theorem getSendQueueSize_eq : q.getSendQueueSize = q.pending.length := h.totalBytes_eq

/-- What is in front has something left. -/
theorem peekSend_ne_nil (hne : q.chunks ≠ []) : q.peekSend ≠ [] := by
  unfold peekSend
  cases hq : q.chunks with
  | nil => exact absurd hq hne
  | cons front rest =>
    have hfront := h.offset_lt front (by rw [hq]; exact List.mem_cons_self)
    intro hnil
    exact absurd (List.drop_eq_nil_iff.mp hnil) (Nat.not_le.mpr hfront)

/-- The loop leaves off when there is nothing left to send. -/
theorem done_iff : q.Done ↔ q.pending = [] := by
  unfold Done
  constructor
  · rintro (hempty | hview)
    · rw [pending, List.isEmpty_iff.mp hempty]
      rfl
    · by_contra hne
      refine h.peekSend_ne_nil (fun hq => hne ?_) (List.length_eq_zero_iff.mp hview)
      rw [pending, hq]
      rfl
  · intro hnil
    left
    rw [isSendQueueEmpty, List.isEmpty_iff]
    by_contra hne
    cases hq : q.chunks with
    | nil => exact hne hq
    | cons front rest =>
      have hpeek := h.peekSend_ne_nil hne
      rw [pending, hq, List.map_cons, List.flatten_cons] at hnil
      rw [peekSend, hq] at hpeek
      exact hpeek (List.append_eq_nil_iff.mp hnil).1

/-- `EnqueueSend` appends, and never refuses. -/
theorem enqueueSend (view : Bytes) :
    (q.enqueueSend view).1.WellFormed ∧ (q.enqueueSend view).1.pending = q.pending ++ view
      ∧ (q.enqueueSend view).2 = true := by
  unfold SendBufferQueue.enqueueSend
  by_cases hview : view.length = 0
  · rw [if_pos hview, List.length_eq_zero_iff.mp hview, List.append_nil]
    exact ⟨h, rfl, rfl⟩
  · rw [if_neg hview]
    have hpending : pending ⟨q.chunks ++ [⟨view, 0⟩], q.totalBytes + view.length⟩
        = q.pending ++ view := by
      rw [pending, List.map_append, List.flatten_append]
      show q.pending ++ (view ++ []) = _
      rw [List.append_nil]
    refine ⟨⟨fun chunk hmem => ?_, ?_⟩, hpending, rfl⟩
    · rcases List.mem_append.mp hmem with hold | hnew
      · exact h.offset_lt chunk hold
      · rw [List.mem_singleton.mp hnew]
        exact Nat.pos_of_ne_zero hview
    · rw [hpending, List.length_append, ← h.totalBytes_eq]

/-- **`ConsumeSend` drops from the front** what the socket took of the first chunk. -/
theorem consumeSend {n : ℕ} (hn : n ≤ q.peekSend.length) :
    (q.consumeSend n).WellFormed ∧ (q.consumeSend n).pending = q.pending.drop n := by
  obtain ⟨hlt, htotal⟩ := h
  unfold SendBufferQueue.consumeSend
  cases hq : q.chunks with
  | nil =>
    rw [peekSend, hq, List.length_nil, Nat.le_zero] at hn
    rw [hn, List.drop_zero]
    exact ⟨⟨hlt, htotal⟩, rfl⟩
  | cons front rest =>
    have hfront := hlt front (by rw [hq]; exact List.mem_cons_self)
    have hrest : ∀ chunk ∈ rest, chunk.offset < chunk.data.length := fun chunk hmem =>
      hlt chunk (by rw [hq]; exact List.mem_cons_of_mem _ hmem)
    have hpending : q.pending = front.rest ++ (rest.map Chunk.rest).flatten := by
      rw [pending, hq, List.map_cons, List.flatten_cons]
    have hle : n ≤ front.data.length - front.offset := by
      rw [peekSend, hq, List.length_drop] at hn
      exact hn
    have hlength : front.rest.length = front.data.length - front.offset := List.length_drop
    dsimp only
    by_cases hzero : n = 0
    · rw [if_pos hzero, hzero, List.drop_zero]
      exact ⟨⟨hlt, htotal⟩, rfl⟩
    · rw [if_neg hzero, Nat.min_eq_left hle]
      rw [hpending, List.length_append, hlength] at htotal
      have hdrop : q.pending.drop n = front.rest.drop n ++ (rest.map Chunk.rest).flatten := by
        rw [hpending, List.drop_append_of_le_length (hlength ▸ hle)]
      by_cases hall : front.offset + n = front.data.length
      · -- the chunk is used up and leaves the queue
        rw [if_pos hall]
        have hnil : front.rest.drop n = [] := List.drop_eq_nil_of_le (by omega)
        refine ⟨⟨hrest, ?_⟩, ?_⟩
        · show q.totalBytes - n = ((rest.map Chunk.rest).flatten).length
          omega
        · rw [hdrop, hnil]
          rfl
      · rw [if_neg hall]
        have hpending' : pending ⟨{ front with offset := front.offset + n } :: rest,
            q.totalBytes - n⟩ = q.pending.drop n := by
          rw [hdrop, Chunk.rest, List.drop_drop]
          rfl
        refine ⟨⟨fun chunk hmem => ?_, ?_⟩, hpending'⟩
        · rcases List.mem_cons.mp hmem with rfl | hmem
          · show front.offset + n < front.data.length
            omega
          · exact hrest chunk hmem
        · rw [hpending', hpending, List.length_drop, List.length_append, hlength]
          show q.totalBytes - n = _
          omega

end WellFormed

/-- **What the loop does**: it moves bytes from the queue to the wire, and stops at an error
of the socket or when nothing is left. -/
structure DrainSpec (q : SendBufferQueue) (answers : List SendAnswer) (d : Drained) : Prop where
  wellFormed : d.queue.WellFormed
  wire_append : d.wire ++ d.queue.pending = q.pending
  stop_iff : ∀ err, d.stop = some err ↔ .failed err ∈ answers
  pending_iff : d.queue.pending = [] ↔ d.stop = none

theorem drain_spec {q : SendBufferQueue} (h : q.WellFormed) {answers : List SendAnswer}
    {d : Drained} (hd : q.drain answers = some d) : DrainSpec q answers d := by
  induction answers generalizing q d with
  | nil =>
    rw [drain] at hd
    split at hd
    · rename_i hdone
      cases hd
      exact ⟨h, rfl, fun err => ⟨nofun, nofun⟩, iff_of_true (h.done_iff.mp hdone) rfl⟩
    · cases hd
  | cons answer answers ih =>
    cases answer with
    | failed err =>
      rw [drain] at hd
      split at hd
      · rename_i hdone
        cases hd
        refine ⟨h, rfl, fun err' => ?_, ?_⟩
        · rw [hdone.2, List.mem_singleton, Option.some.injEq, SendAnswer.failed.injEq, eq_comm]
        · exact iff_of_false (fun hnil => hdone.1 (h.done_iff.mpr hnil)) nofun
      · cases hd
    | sent n =>
      rw [drain] at hd
      split at hd
      · rename_i hdone
        obtain ⟨d', hd', rfl⟩ := Option.map_eq_some_iff.mp hd
        obtain ⟨hwf, hpending⟩ := h.consumeSend hdone.2
        obtain ⟨hwf', hwire, hstop, hnil⟩ := ih hwf hd'
        refine ⟨hwf', ?_, fun err => ?_, hnil⟩
        · show q.peekSend.take n ++ d'.wire ++ d'.queue.pending = q.pending
          have htake : q.peekSend.take n = q.pending.take n := take_peekSend hdone.2
          rw [List.append_assoc, hwire, hpending, htake, List.take_append_drop]
        · rw [List.mem_cons, or_iff_right nofun]
          exact hstop err
      · cases hd

end SendBufferQueue

/-! ## The receive buffer -/

/-- `BufferView` into the receive buffer: where the pointer points to, and the size. -/
structure BufferView where
  offset : ℕ
  size : ℕ
  deriving DecidableEq, Repr

/-- `ReceiveBuffer`: what is stored behind the pointer of `buffer_` and its size, and the two
positions. The braces of `buffer_{64 * 1024}` make it a vector of one element and not of as many:
the one is 64 Ki as a `char`, which is 0. -/
structure ReceiveBuffer where
  buffer : Memory UInt8 := fun _ => 0
  size : ℕ := 1
  readPos : ℕ := 0
  writePos : ℕ := 0

namespace ReceiveBuffer

/-- `vector::resize`: what is new is zero. -/
def resize (b : ReceiveBuffer) (size : ℕ) : ReceiveBuffer :=
  { b with
    buffer := fun i => if i < b.size then b.buffer i else 0
    size }

/-- `GetReceiveBuffer`. -/
def getReceiveBuffer (b : ReceiveBuffer) : BufferView × ReceiveBuffer :=
  let b := if b.writePos = b.size then b.resize (b.size * 2) else b
  (⟨b.writePos, b.size - b.writePos⟩, b)

/-- `CommitReceive`. -/
def commitReceive (b : ReceiveBuffer) (bytes : ℕ) : ReceiveBuffer :=
  { b with writePos := b.writePos + bytes }

/-- `GetReceiveBufferSize`. -/
def getReceiveBufferSize (b : ReceiveBuffer) : ℕ := b.writePos - b.readPos

/-- `ClearAll`. -/
def clearAll (b : ReceiveBuffer) : ReceiveBuffer := { b with readPos := 0, writePos := 0 }

/-- What the kernel does with a view: it stores the data at its pointer. -/
def store (b : ReceiveBuffer) (view : BufferView) (data : Bytes) : ReceiveBuffer :=
  { b with buffer := b.buffer.write view.offset data }

/-- The view lies inside the buffer. -/
def Inside (b : ReceiveBuffer) (view : BufferView) : Prop := view.offset + view.size ≤ b.size

instance (b : ReceiveBuffer) (view : BufferView) : Decidable (b.Inside view) :=
  inferInstanceAs (Decidable (_ ≤ _))

/-- What is read through a view; `none` if it does not lie inside the buffer. -/
def load (b : ReceiveBuffer) (view : BufferView) : Option Bytes :=
  if b.Inside view then some (b.buffer.read view.offset view.size) else none

/-- The size after `GetReceiveBuffer`. -/
def grownSize (b : ReceiveBuffer) : ℕ := if b.writePos = b.size then b.size * 2 else b.size

/-- The positions of the buffer are in order. -/
structure InBounds (b : ReceiveBuffer) : Prop where
  size_pos : 0 < b.size
  writePos_le : b.writePos ≤ b.size

variable {b : ReceiveBuffer}

theorem inBounds_initial : ({} : ReceiveBuffer).InBounds := ⟨by decide, Nat.zero_le _⟩

theorem InBounds.clearAll (h : b.InBounds) : b.clearAll.InBounds := ⟨h.size_pos, Nat.zero_le _⟩

/-- **The region that `GetReceiveBuffer` gives**: all that is behind the data, and never
nothing. -/
theorem InBounds.getReceiveBuffer (h : b.InBounds) :
    b.getReceiveBuffer.1 = ⟨b.writePos, b.grownSize - b.writePos⟩
      ∧ b.getReceiveBuffer.2.size = b.grownSize
      ∧ b.getReceiveBuffer.2.writePos = b.writePos ∧ b.writePos < b.grownSize := by
  obtain ⟨hpos, hle⟩ := h
  unfold ReceiveBuffer.getReceiveBuffer grownSize
  by_cases hfull : b.writePos = b.size
  · rw [if_pos hfull, if_pos hfull]
    exact ⟨rfl, rfl, rfl, by omega⟩
  · rw [if_neg hfull, if_neg hfull]
    exact ⟨rfl, rfl, rfl, by omega⟩

theorem InBounds.inBounds_getReceiveBuffer (h : b.InBounds) : b.getReceiveBuffer.2.InBounds := by
  obtain ⟨-, hsize, hwrite, hlt⟩ := h.getReceiveBuffer
  exact ⟨by omega, by omega⟩

theorem InBounds.size_getReceiveBuffer_ne (h : b.InBounds) : b.getReceiveBuffer.1.size ≠ 0 := by
  obtain ⟨hregion, -, -, hlt⟩ := h.getReceiveBuffer
  rw [hregion]
  exact Nat.sub_ne_zero_of_lt hlt

/-- A chunk that fits into the region leaves the positions in order. -/
theorem InBounds.commitReceive (h : b.InBounds) {data : Bytes}
    (hdata : data.length ≤ b.getReceiveBuffer.1.size) :
    ((b.getReceiveBuffer.2.store b.getReceiveBuffer.1 data).commitReceive
      data.length).InBounds := by
  obtain ⟨hregion, hsize, hwrite, hlt⟩ := h.getReceiveBuffer
  have hroom : data.length ≤ b.grownSize - b.writePos := by rwa [hregion] at hdata
  refine ⟨h.inBounds_getReceiveBuffer.size_pos, ?_⟩
  show b.getReceiveBuffer.2.writePos + data.length ≤ b.getReceiveBuffer.2.size
  omega

end ReceiveBuffer

/-! ## The connection -/

/-- The error codes of the methods: the ones of `ConnectionError` that they return, and the
ones of the system. -/
inductive CallError
  | alreadyConnected
  | notConnected
  | sendQueueFull
  | system (err : ℕ)
  deriving DecidableEq, Repr

/-- The error code of the system with a value. The value 0 is success. -/
def errorCode (err : ℕ) : Option CallError := if err = 0 then none else some (.system err)

/-- What the callbacks are called with: `NotifyEvent` for the first three, `NotifyData` and
`NotifyError`. A data notification carries what is read through its view. -/
inductive Notice
  | connected
  | disconnected
  | dataSent
  | data (view : BufferView) (contents : Option Bytes)
  | error (err : ℕ)
  deriving DecidableEq, Repr

/-- `TcpConnection`. -/
structure TcpConnection where
  socketValid : Bool
  state : ConnectionState := .disconnected
  sendQueue : SendBufferQueue := {}
  receiveBuffer : ReceiveBuffer := {}

/-- What a method does: the connection afterwards, what the socket took, and the
notifications. -/
structure Effect where
  conn : TcpConnection
  wire : Bytes := []
  notices : List Notice := []

/-- How `Connect` ends: it returns an error code, `none` being the empty one, or
`create_socket` throws. -/
inductive ConnectReply
  | returned (e : Option CallError)
  | thrown
  deriving DecidableEq, Repr

namespace TcpConnection

variable (c : TcpConnection)

/-- `closeInternal`. The socket is not valid afterwards, whether it was or not. -/
def closeInternal : Effect where
  conn :=
    { socketValid := false
      state := StateMachine.setDisconnected c.state
      sendQueue := c.sendQueue.clearAll
      receiveBuffer := c.receiveBuffer.clearAll }
  notices := [.disconnected]

/-- `ConnectInternal`, which both `Connect` call. `created` is the outcome of
`create_socket`. -/
def connectInternal (created : Bool) (answer : ConnectAnswer) : Effect × ConnectReply :=
  if c.state ≠ .disconnected then ({ conn := c }, .returned (some .alreadyConnected))
  else if !c.socketValid && !created then ({ conn := c }, .thrown)
  else
    let c := { c with socketValid := true }
    if !answer.accepted then
      if answer.err = einprogress then
        ({ conn := { c with state := (StateMachine.setConnecting c.state).1 } }, .returned none)
      else ({ conn := c }, .returned (errorCode answer.err))
    else
      ({ conn := { c with state := (StateMachine.setConnected c.state).1 },
         notices := [.connected] }, .returned none)

/-- `onConnectComplete`. `err` is what `get_error` says. -/
def onConnectComplete (err : ℕ) : Effect :=
  if c.state = .connecting then
    if err = 0 then
      { conn := { c with state := (StateMachine.setConnected c.state).1 }
        notices := [.connected] }
    else
      { conn := { c with state := StateMachine.setError c.state }
        notices := [.error err] }
  else { conn := c }

/-- `Disconnect`. What `SetDisconnecting` makes of the state is a parameter, the source having
no definition of it. -/
def disconnect (setDisconnecting : ConnectionState → ConnectionState) : Effect :=
  if c.state = .disconnected then { conn := c }
  else closeInternal { c with state := setDisconnecting c.state }

/-- `Close`. -/
def close : Effect := c.closeInternal

/-- `Send`. -/
def send (data : Bytes) (answer : SendAnswer) : Effect × Except CallError ℕ :=
  if !StateMachine.isConnected c.state then ({ conn := c }, .error .notConnected)
  else
    match answer with
    | .failed err =>
      if err = eagain then
        let r := c.sendQueue.enqueueSend data
        if !r.2 then ({ conn := c }, .error .sendQueueFull)
        else ({ conn := { c with sendQueue := r.1 } }, .ok data.length)
      else ({ conn := c }, .error (.system err))
    | .sent n => ({ conn := c, wire := data.take n }, .ok n)

/-- `Flush`. -/
def flush (answers : List SendAnswer) : Option (Effect × Option CallError) :=
  if !StateMachine.isConnected c.state then
    if answers = [] then some ({ conn := c }, some .notConnected) else none
  else
    (c.sendQueue.drain answers).map fun d =>
      ({ conn := { c with sendQueue := d.queue }, wire := d.wire },
        match d.stop with
        | none => none
        | some err => if err = eagain then none else errorCode err)

/-- `onWriteEvent`. -/
def onWriteEvent (answers : List SendAnswer) : Option Effect :=
  if !StateMachine.isConnected c.state then
    if answers = [] then some { conn := c } else none
  else
    (c.sendQueue.drain answers).map fun d =>
      let c := { c with sendQueue := d.queue }
      let notices := List.replicate d.sends Notice.dataSent
      match d.stop with
      | none => { conn := c, wire := d.wire, notices }
      | some err =>
        if err = eagain then { conn := c, wire := d.wire, notices }
        else
          { conn := c.closeInternal.conn
            wire := d.wire
            notices := notices ++ c.closeInternal.notices ++ [.error err] }

/-- `onReadEvent`. -/
def onReadEvent (answer : RecvAnswer) : Effect :=
  if !StateMachine.isConnected c.state then { conn := c }
  else
    let (region, b) := c.receiveBuffer.getReceiveBuffer
    let c := { c with receiveBuffer := b }
    if region.size = 0 then { conn := c }
    else
      match answer with
      | .failed err =>
        if err = eagain then { conn := c }
        else
          { conn := c.closeInternal.conn
            notices := c.closeInternal.notices ++ [.error err] }
      | .received data =>
        if data.length = 0 then
          { conn := c.closeInternal.conn
            notices := c.closeInternal.notices ++ [.disconnected] }
        else
          let b := (b.store region data).commitReceive data.length
          let (readView, b) := b.getReceiveBuffer
          let view : BufferView := ⟨readView.offset, b.getReceiveBufferSize⟩
          { conn := { c with receiveBuffer := b }
            notices := [.data view (b.load view)] }

end TcpConnection
