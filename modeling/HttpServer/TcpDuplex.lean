import HttpServer.SendQueue
import HttpServer.TcpSend

/-!
# Sending and receiving on one connection

The queue of what is to be sent and the buffer for what is received are kept by one
`ConnectionBufferManager`, whose `ClearAll` empties both. `Receive` means to throw away the
received bytes it has returned, and calls it. So whatever was waiting to be sent is gone as
well, half a message if the first half is on the wire already.

`receive_undisturbed_iff` says which calls of `Receive` leave the other direction alone: those
that do not come as far, and those that find nothing to be sent.
-/

/-! ## The calls -/

/-- The calls of a connection that touch its buffers, and any step of its life cycle, which
changes the state and the descriptor. -/
inductive DuplexCall
  | send (data : Bytes) (alloc : Bool) (io : ℕ → SendOutcome)
  | flush (io : ℕ → SendOutcome)
  | receive (a : ReceiveCall)
  | clearBuffers
  | configure (sendBufferSize : UInt64)
  | lifeCycle (state : ConnectionState) (socketFd : ℤ)

namespace TCPReceiver

variable (c : TCPReceiver)

/-- `ClearBuffers`. -/
def clearBuffers : TCPReceiver :=
  { c with
    conn := { c.conn with connectionBuffer := c.conn.connectionBuffer.clear }
    side := c.side.clear }

/-- `Configure`, as far as the buffers go. -/
def configure (sendBufferSize : UInt64) : TCPReceiver :=
  { c with conn := { c.conn with
    connectionBuffer := c.conn.connectionBuffer.setMaxSendQueueSize sendBufferSize } }

/-- One call. -/
def call : DuplexCall → TCPReceiver
  | .send data alloc io => { c with conn := (c.conn.send data alloc io).1.1 }
  | .flush io => { c with conn := (c.conn.flush io).conn }
  | .receive a => (a.perform c).conn
  | .clearBuffers => c.clearBuffers
  | .configure sendBufferSize => c.configure sendBufferSize
  | .lifeCycle state socketFd => { c with conn := { c.conn with state, socketFd } }

end TCPReceiver

/-- The connection that is used in both directions. -/
def duplex : Machine TCPReceiver DuplexCall Unit :=
  ⟨fun c a => some (c.call a, ())⟩

/-- **The sending direction is as it was**: the pending bytes, the view of `PeekSend` and
`GetPendingSendBytes`. -/
structure TCPConnection.Undisturbed (c c' : TCPConnection) : Prop where
  pending_eq : c'.pending = c.pending
  peekSend_eq : c'.connectionBuffer.peekSend = c.connectionBuffer.peekSend
  getPendingSendBytes_eq : c'.getPendingSendBytes = c.getPendingSendBytes

/-- A call, if it is one of `Receive`, leaves the sending direction as it was. -/
def DuplexCall.LeavesSending (c : TCPReceiver) : DuplexCall → Prop
  | .receive a => c.conn.Undisturbed (a.perform c).conn.conn
  | _ => True

/-! ## What a call of `Receive` clears -/

/-- `Receive` comes to its `ClearAll`: something is asked for, the socket does not fail, and
there is a buffer to copy from. -/
structure ReceiveCall.Clears (a : ReceiveCall) (c : TCPReceiver) : Prop where
  maxLen_ne : a.maxLen ≠ 0
  received : ∃ data, a.io = .received data
  memory : c.side.region a.maxLen a.alloc ≠ none ∨ a.alloc 3 ≠ none

theorem TCPReceiver.conn_receiveInto (c : TCPReceiver) (len : ℕ)
    (alloc : ℕ → Option (Memory UInt8)) (io : RecvOutcome) :
    (c.receiveInto len alloc io).conn = (c.receive len alloc io).conn := by
  unfold receiveInto
  dsimp only
  split <;> rfl

namespace ReceiveCall

variable {c : TCPReceiver} {a : ReceiveCall}

theorem conn_perform (a : ReceiveCall) (c : TCPReceiver) :
    (a.perform c).conn = (c.receive a.maxLen a.alloc a.io).conn := by
  unfold perform
  cases a.overload with
  | string => rfl
  | buffer => exact c.conn_receiveInto _ _ _

/-- **A call that comes to its end clears the send queue.** -/
theorem conn_of_clears (h : c.side.Idle) (hclears : a.Clears c) :
    (a.perform c).conn.conn
      = { c.conn with connectionBuffer := c.conn.connectionBuffer.clear } := by
  obtain ⟨hpos, ⟨data, hio⟩, hmemory⟩ := hclears
  rw [conn_perform, hio]
  cases hb : c.side.region a.maxLen a.alloc with
  | none =>
    obtain ⟨c', -, hconn, hreceive⟩ := TCPReceiver.receive_no_region h hpos data hb
    rw [hreceive, hconn, if_neg (hmemory.resolve_left fun hne => hne hb)]
  | some b =>
    obtain ⟨c', -, hconn, hreceive⟩ := TCPReceiver.receive_received h hpos data hb
    rw [hreceive, hconn]

/-- Any other call leaves the connection, as far as sending goes, as it is. -/
theorem conn_of_not_clears (h : c.side.Idle) (hclears : ¬ a.Clears c) :
    (a.perform c).conn.conn = c.conn := by
  rw [conn_perform]
  by_cases hpos : a.maxLen = 0
  · rw [TCPReceiver.receive, if_pos hpos]
  cases hio : a.io with
  | failed e => rw [TCPReceiver.receive_failed h hpos]
  | received data =>
    have hnone : c.side.region a.maxLen a.alloc = none := by
      by_contra hne
      exact hclears ⟨hpos, ⟨data, hio⟩, Or.inl hne⟩
    have halloc : a.alloc 3 = none := by
      by_contra hne
      exact hclears ⟨hpos, ⟨data, hio⟩, Or.inr hne⟩
    obtain ⟨c', -, hconn, hreceive⟩ := TCPReceiver.receive_no_region h hpos data hnone
    rw [hreceive, hconn, if_pos halloc]

end ReceiveCall

/-! ## When nothing is lost -/

/-- **A call that spares what is to be sent**: nothing is asked for, nothing is pending, the
socket answers with an error, or there is no memory for a receive buffer. -/
def DuplexCall.SparesSending (c : TCPReceiver) : DuplexCall → Prop
  | .receive a =>
    a.maxLen = 0 ∨ c.conn.pending = [] ∨ (∃ e, a.io = .failed e)
      ∨ (c.side.region a.maxLen a.alloc = none ∧ a.alloc 3 = none)
  | _ => True

theorem ReceiveCall.not_clears_iff {a : ReceiveCall} {c : TCPReceiver} :
    ¬ a.Clears c ↔ a.maxLen = 0 ∨ (∃ e, a.io = .failed e)
      ∨ (c.side.region a.maxLen a.alloc = none ∧ a.alloc 3 = none) := by
  constructor
  · intro hno
    by_contra hcontra
    rw [not_or, not_or] at hcontra
    obtain ⟨hpos, hfailed, hmemory⟩ := hcontra
    refine hno ⟨hpos, ?_, not_and_or.mp hmemory⟩
    cases hio : a.io with
    | failed e => exact absurd ⟨e, hio⟩ hfailed
    | received data => exact ⟨data, rfl⟩
  · rintro (hzero | ⟨e, he⟩ | ⟨hregion, halloc⟩) ⟨hpos, ⟨data, hio⟩, hmemory⟩
    · exact hpos hzero
    · rw [he] at hio
      cases hio
    · exact hmemory.elim (fun hne => hne hregion) (fun hne => hne halloc)

/-- The states a connection can be in between calls. -/
structure TCPReceiver.Inv (c : TCPReceiver) : Prop where
  wellFormed : c.conn.connectionBuffer.WellFormed
  idle : c.side.Idle

namespace TCPReceiver.Inv

variable {c : TCPReceiver} (h : c.Inv)
include h

theorem call (a : DuplexCall) : (c.call a).Inv := by
  cases a with
  | send data alloc io =>
    exact ⟨(TCPConnection.wire_append_send h.wellFormed data alloc io).1, h.idle⟩
  | flush io => exact ⟨(TCPConnection.flush_spec h.wellFormed io).wellFormed, h.idle⟩
  | receive a =>
    refine ⟨?_, (ReceiveCall.perform_outcome h.idle a).idle⟩
    show (a.perform c).conn.conn.connectionBuffer.WellFormed
    by_cases hclears : a.Clears c
    · rw [ReceiveCall.conn_of_clears h.idle hclears]
      exact ⟨nofun, nofun, fun _ => rfl⟩
    · rw [ReceiveCall.conn_of_not_clears h.idle hclears]
      exact h.wellFormed
  | clearBuffers => exact ⟨⟨nofun, nofun, fun _ => rfl⟩, ReceiveSide.idle_of_none rfl rfl⟩
  | configure sendBufferSize =>
    exact ⟨⟨h.wellFormed.ne_nil, h.wellFormed.consumed_lt, h.wellFormed.consumed_eq⟩, h.idle⟩
  | lifeCycle state socketFd => exact ⟨h.wellFormed, h.idle⟩

/-- Clearing a queue goes unnoticed exactly if nothing is pending. -/
theorem undisturbed_clear_iff :
    c.conn.Undisturbed { c.conn with connectionBuffer := c.conn.connectionBuffer.clear }
      ↔ c.conn.pending = [] := by
  constructor
  · intro hsame
    exact hsame.pending_eq.symm
  · intro hnil
    have hqueue : c.conn.connectionBuffer.sendQueue = [] :=
      ConnectionBufferManager.unsent_eq_nil_iff.mp (h.wellFormed.pending_eq_nil_iff.mp hnil)
    refine ⟨hnil.symm, ?_, ?_⟩
    · unfold ConnectionBufferManager.peekSend
      rw [hqueue]
      rfl
    · unfold TCPConnection.getPendingSendBytes ConnectionBufferManager.getSendQueueSize
      rw [hqueue]
      rfl

/-- **One call of `Receive` leaves the sending direction as it was exactly if it spares it.** -/
theorem leavesSending_iff (a : DuplexCall) : a.LeavesSending c ↔ a.SparesSending c := by
  cases a with
  | receive a =>
    show c.conn.Undisturbed (a.perform c).conn.conn ↔ _
    by_cases hclears : a.Clears c
    · rw [ReceiveCall.conn_of_clears h.idle hclears, h.undisturbed_clear_iff]
      refine ⟨fun hnil => Or.inr (Or.inl hnil), ?_⟩
      rintro (hzero | hnil | hrest)
      · exact absurd hclears (ReceiveCall.not_clears_iff.mpr (Or.inl hzero))
      · exact hnil
      · exact absurd hclears (ReceiveCall.not_clears_iff.mpr (Or.inr hrest))
    · rw [ReceiveCall.conn_of_not_clears h.idle hclears]
      refine iff_of_true ⟨rfl, rfl, rfl⟩ ?_
      rcases ReceiveCall.not_clears_iff.mp hclears with hzero | hrest
      · exact Or.inl hzero
      · exact Or.inr (Or.inr hrest)
  | _ => exact Iff.rfl

end TCPReceiver.Inv

/-- **When receiving does not disturb sending.** In every run of a connection, from any state
and with any limit and receive strategy, all calls of `Receive` leave the pending bytes, the
view of `PeekSend` and `GetPendingSendBytes` as they were exactly if each of them is a call
that spares them. -/
theorem receive_undisturbed_iff (state : ConnectionState) (fd : ℤ) (maxSendQueueSize : UInt64)
    (receiveStrategy : ℕ → ℕ) (calls : List DuplexCall) :
    duplex.Along DuplexCall.LeavesSending
        ⟨⟨state, fd, { maxSendQueueSize }, 0⟩, { receiveStrategy }, 0⟩ calls
      ↔ duplex.Along DuplexCall.SparesSending
        ⟨⟨state, fd, { maxSendQueueSize }, 0⟩, { receiveStrategy }, 0⟩ calls := by
  refine Machine.along_iff_along (I := TCPReceiver.Inv) ?_ (fun c a r h _ => h.leavesSending_iff a)
    ⟨⟨nofun, nofun, fun _ => rfl⟩, ReceiveSide.idle_of_none rfl rfl⟩
  rintro c a r h hr
  cases hr
  exact h.call a

/-- The socket takes one byte of three, and the other side sends one: the two that are left
are lost. -/
theorem receive_disturbs :
    ¬ duplex.Along DuplexCall.LeavesSending
      ⟨⟨.connected, 3, { maxSendQueueSize := 64 }, 0⟩,
        { receiveStrategy := defaultReceiveStrategy }, 0⟩
      [.send [1, 2, 3] true fun _ => .sent 1,
        .receive ⟨.string, 4, fun _ => some fun _ => 0, .received [7]⟩] := by
  intro h
  have hleaves := ((h _ rfl).2 _ rfl).1
  have hpending : _ = _ := hleaves.pending_eq
  simp [TCPReceiver.call, TCPConnection.send, TCPConnection.flush,
    ConnectionBufferManager.enqueueSend, ConnectionBufferManager.isSendQueueEmpty,
    ConnectionBufferManager.peekSend, TCPConnection.pending, ConnectionBufferManager.pending,
    ConnectionBufferManager.unsent, ConnectionBufferManager.unsentFrom,
    ConnectionBufferManager.consumeSend, ConnectionBufferManager.consumeSendLoop,
    ReceiveCall.perform, TCPReceiver.receive, TCPReceiver.offer, ReceiveSide.getReceiveBuffer,
    ReceiveSide.prepareReceive, ReceiveSide.freeView, ReceiveSide.store,
    ReceiveSide.commitReceive, Buffer.resize, TCPReceiver.copyOut,
    ConnectionBufferManager.clear] at hpending
