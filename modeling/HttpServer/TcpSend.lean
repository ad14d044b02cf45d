import HttpServer.TcpConnection
import Mathlib.Data.UInt

/-!
# Whole messages on the wire

`Send` holds `state_mutex_` from its first line to its last, so that the `Send`s of any number
of threads come one after the other, each of them whole. `Flush` alone takes no mutex; a run is
a sequence of calls, in which a flush comes between two others and not within one. What the
`Send`s hand to `EnqueueSend` is what is to reach the socket, and nothing else does: a flush that
ends early, for an error or because the socket took only a part, leaves the rest where the next
one begins.

So the wire and what is pending are together always the messages that were enqueued, in that
order and each in one piece (`sends_ordered`). The counter `bytes_sent_` is a `size_t`, and
counts the wire modulo its size.
-/

namespace TCPConnection

/-- `GetPendingSendBytes`. -/
def getPendingSendBytes (c : TCPConnection) : ℕ := c.connectionBuffer.getSendQueueSize

/-- `Send` comes to its `EnqueueSend`, and this returns true. -/
def Enqueues (c : TCPConnection) (data : Bytes) (alloc : Bool) : Prop :=
  c.state = .connected ∧ (c.connectionBuffer.enqueueSend data alloc).2 = true

instance (c : TCPConnection) (data : Bytes) (alloc : Bool) : Decidable (c.Enqueues data alloc) :=
  inferInstanceAs (Decidable (_ ∧ _))

/-! ## One call -/

variable {c : TCPConnection}

/-- What a `send` adds to the wire and the queue is the message, or nothing. -/
theorem wire_append_send (h : c.connectionBuffer.WellFormed) (data : Bytes) (alloc : Bool)
    (io : ℕ → SendOutcome) :
    (c.send data alloc io).1.1.connectionBuffer.WellFormed
      ∧ (c.send data alloc io).1.2 ++ (c.send data alloc io).1.1.pending
        = c.pending ++ if c.Enqueues data alloc then data else [] := by
  by_cases hc : c.state = .connected
  · obtain ⟨hwf, hwire, -⟩ := send_spec h hc data alloc io
    refine ⟨hwf, ?_⟩
    rw [hwire, h.flatten_enqueued]
    simp only [Enqueues, hc, true_and]
  · have hsend : c.send data alloc io = ((c, []), .error .notConn) := by
      rw [send, if_pos hc]
    rw [hsend, if_neg fun he => hc he.1, List.append_nil]
    exact ⟨h, rfl⟩

theorem bytesSent_send (c : TCPConnection) (data : Bytes) (alloc : Bool) (io : ℕ → SendOutcome) :
    (c.send data alloc io).1.1.bytesSent
      = c.bytesSent + .ofNat (c.send data alloc io).1.2.length := by
  unfold send
  split
  · exact (UInt64.add_zero _).symm
  · dsimp only
    split <;> exact bytesSent_flush _ io

/-! ## Runs -/

/-- A connection with what the socket has taken so far, and with the messages whose
`EnqueueSend` returned true, in that order, each with the thread that sent it. -/
structure SendRun (θ : Type*) where
  conn : TCPConnection
  wire : Bytes := []
  enqueued : List (θ × Bytes) := []

/-- One call of a thread. -/
def SendRun.call {θ : Type*} (s : SendRun θ) (t : θ) : SendCall → SendRun θ
  | .send data alloc io =>
    let r := s.conn.send data alloc io
    { conn := r.1.1
      wire := s.wire ++ r.1.2
      enqueued := if s.conn.Enqueues data alloc then s.enqueued ++ [(t, data)] else s.enqueued }
  | .flush io =>
    let r := s.conn.flush io
    { s with conn := r.conn, wire := s.wire ++ r.wire }

/-- The calls of the threads at one connection, one after the other. The mutex sees to that for
`Send`; a `Flush` that runs beside another call is not among the runs. -/
def senders (θ : Type*) : Machine (SendRun θ) (θ × SendCall) Unit :=
  ⟨fun s a => some (s.call a.1 a.2, ())⟩

/-- **Whole messages in order**: the wire followed by what is pending is what was enqueued,
one message behind the other, and the two counters count the two parts. -/
structure SendRun.Ordered {θ : Type*} (s : SendRun θ) : Prop where
  wire_append : s.wire ++ s.conn.pending = (s.enqueued.map Prod.snd).flatten
  getPendingSendBytes_eq : s.conn.getPendingSendBytes = s.conn.pending.length
  bytesSent_eq : s.conn.bytesSent = .ofNat s.wire.length

/-- What every call keeps. -/
structure SendRun.Inv {θ : Type*} (s : SendRun θ) : Prop where
  wellFormed : s.conn.connectionBuffer.WellFormed
  wire_append : s.wire ++ s.conn.pending = (s.enqueued.map Prod.snd).flatten
  bytesSent_eq : s.conn.bytesSent = .ofNat s.wire.length

namespace SendRun.Inv

variable {θ : Type*} {s : SendRun θ} (h : s.Inv)
include h

theorem ordered : s.Ordered :=
  ⟨h.wire_append, ConnectionBufferManager.getSendQueueSize_eq _, h.bytesSent_eq⟩

theorem call (t : θ) (a : SendCall) : (s.call t a).Inv := by
  cases a with
  | send data alloc io =>
    obtain ⟨hwf, hwire⟩ := wire_append_send h.wellFormed data alloc io
    refine ⟨hwf, ?_, ?_⟩
    · show s.wire ++ (s.conn.send data alloc io).1.2 ++ (s.conn.send data alloc io).1.1.pending
        = ((if s.conn.Enqueues data alloc then s.enqueued ++ [(t, data)]
            else s.enqueued).map Prod.snd).flatten
      rw [List.append_assoc, hwire, ← List.append_assoc, h.wire_append]
      split
      · rw [List.map_append, List.flatten_append, List.map_singleton, List.flatten_singleton]
      · rw [List.append_nil]
    · show (s.conn.send data alloc io).1.1.bytesSent
        = .ofNat (s.wire ++ (s.conn.send data alloc io).1.2).length
      rw [bytesSent_send, h.bytesSent_eq, List.length_append, UInt64.ofNat_add]
  | flush io =>
    obtain ⟨hwf, hwire, -⟩ := flush_spec h.wellFormed io
    refine ⟨hwf, ?_, ?_⟩
    · show s.wire ++ (s.conn.flush io).wire ++ (s.conn.flush io).conn.pending
        = (s.enqueued.map Prod.snd).flatten
      rw [List.append_assoc, hwire, h.wire_append]
    · show (s.conn.flush io).conn.bytesSent = .ofNat (s.wire ++ (s.conn.flush io).wire).length
      rw [bytesSent_flush, h.bytesSent_eq, List.length_append, UInt64.ofNat_add]

end SendRun.Inv

/-- **Whole messages reach the wire in order.** For a connection in any state and with any
limit, any sequence of calls of `Send` and `Flush`, each with the thread it comes from, and
whatever the socket and the allocator answer. -/
theorem sends_ordered {θ : Type*} (state : ConnectionState) (fd : ℤ) (maxSendQueueSize : UInt64)
    (calls : List (θ × SendCall)) :
    (senders θ).Always SendRun.Ordered ⟨⟨state, fd, { maxSendQueueSize }, 0⟩, [], []⟩ calls := by
  refine Machine.always_of_step (I := SendRun.Inv) (fun s h => h.ordered) ?_
    ⟨⟨nofun, nofun, fun _ => rfl⟩, rfl, rfl⟩
  rintro s a r h hr
  cases hr
  exact h.call a.1 a.2

end TCPConnection
