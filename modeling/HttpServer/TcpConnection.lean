import HttpServer.ConnectionBuffer
import HttpServer.Machine
import Mathlib.Data.Int.Notation

/-!
# Sending on a TCP connection

`Send`, `Flush` and `Close` of `core/Tcp/tcp_connection.cpp`. The socket is the
environment: each call of the io handler's `Send` is offered the front chunk of
the queue and answers with an error or with how much of it the socket took. What
the socket took, in order, is the *wire*.

The bytes on the wire followed by the pending ones are what `enqueueSend` has
accepted (`flush_spec`, `send_spec`). What `send` *returns*, however, is read off
the flush: the Boolean of `enqueueSend` is dropped, and an error of the socket is
reported although the data stay queued. `send_exact_iff` says in which runs the
two accounts agree all the same.
-/

/-- `ConnectionState`. -/
inductive ConnectionState
  | disconnected
  | connecting
  | connected
  | disconnecting
  | closing
  | error
  deriving DecidableEq, Repr

/-- The errors of the io handler and of `Send`, all of them non-zero codes. -/
inductive SocketError
  /-- `EAGAIN`, which is `EWOULDBLOCK` as well -/
  | again
  /-- `ENOTCONN` -/
  | notConn
  /-- Any other error. -/
  | other (errno : ℕ)
  deriving DecidableEq, Repr

/-- What the io handler's `Send` answers: an error, or how many bytes the socket
took (all of the offered ones if the number is larger). -/
inductive SendOutcome
  | failed (e : SocketError)
  | sent (n : ℕ)
  deriving DecidableEq, Repr

/-- `TCPConnection`, as far as sending and closing go. -/
structure TCPConnection where
  state : ConnectionState
  socketFd : ℤ
  connectionBuffer : ConnectionBufferManager
  bytesSent : UInt64 := 0
  deriving DecidableEq, Repr

/-- What a flush did: the connection afterwards, what the socket took, and the
error code, `none` being the empty one. -/
structure Flushed where
  conn : TCPConnection
  wire : Bytes
  error : Option SocketError
  deriving DecidableEq, Repr

namespace TCPConnection

/-! ## The source -/

/-- The constructor from a file descriptor, with a limit for the send queue. -/
def ofFd (fd : ℤ) (maxSendQueueSize : UInt64) : TCPConnection :=
  ⟨.connected, fd, { maxSendQueueSize }, 0⟩

/-- `Flush`. The outcomes of the io handler's `Send` are `io 0`, `io 1` and so on. -/
def flush (c : TCPConnection) (io : ℕ → SendOutcome) : Flushed :=
  if c.connectionBuffer.isSendQueueEmpty then ⟨c, [], none⟩
  else
    let view := c.connectionBuffer.peekSend
    if hview : view.length = 0 then ⟨c, [], none⟩
    else
      match io 0 with
      | .failed e => ⟨c, [], some e⟩
      | .sent n =>
        if n < view.length then
          if 0 < n then
            ⟨{ c with
                connectionBuffer := c.connectionBuffer.consumeSend n
                bytesSent := c.bytesSent + .ofNat n }, view.take n, none⟩
          else ⟨c, [], none⟩
        else
          have : (c.connectionBuffer.consumeSend view.length).sendQueue.length
              < c.connectionBuffer.sendQueue.length :=
            c.connectionBuffer.length_consumeSend_lt hview
          let r := flush
            { c with
              connectionBuffer := c.connectionBuffer.consumeSend view.length
              bytesSent := c.bytesSent + .ofNat view.length }
            fun k => io (k + 1)
          ⟨r.conn, view ++ r.wire, r.error⟩
termination_by c.connectionBuffer.sendQueue.length

/-- `Send`: the connection afterwards and what the socket took, and the result.
`alloc` is the outcome of the allocation for the queued data. -/
def send (c : TCPConnection) (data : Bytes) (alloc : Bool) (io : ℕ → SendOutcome) :
    (TCPConnection × Bytes) × Except SocketError ℕ :=
  if c.state ≠ .connected then ((c, []), .error .notConn)
  else
    let buffer := (c.connectionBuffer.enqueueSend data alloc).1
    let r := flush { c with connectionBuffer := buffer } io
    match r.error with
    | none => ((r.conn, r.wire), .ok data.length)
    | some e => ((r.conn, r.wire), .error e)

/-- `Close`. -/
def close (c : TCPConnection) : TCPConnection :=
  if 0 ≤ c.socketFd then { c with socketFd := -1, state := .closing } else c

/-! ## What a flush does -/

/-- The bytes still to be sent. -/
def pending (c : TCPConnection) : Bytes := c.connectionBuffer.pending

/-- The chunks still to be sent. -/
def unsent (c : TCPConnection) : List Bytes := c.connectionBuffer.unsent

/-- A flush leaves the connection in the state in which it finds it. -/
theorem state_flush (c : TCPConnection) (io : ℕ → SendOutcome) :
    (c.flush io).conn.state = c.state := by
  fun_induction flush c io with
  | case1 => rfl
  | case2 => rfl
  | case3 => rfl
  | case4 => rfl
  | case5 => rfl
  | case6 _ _ _ _ _ _ _ _ _ _ ih => exact ih

/-- So does `send`, whether it finds it open or not. -/
theorem state_send (c : TCPConnection) (data : Bytes) (alloc : Bool) (io : ℕ → SendOutcome) :
    (c.send data alloc io).1.1.state = c.state := by
  unfold send
  split
  · rfl
  · dsimp only
    split <;> exact state_flush _ io

/-- The descriptor is not touched. -/
theorem socketFd_flush (c : TCPConnection) (io : ℕ → SendOutcome) :
    (c.flush io).conn.socketFd = c.socketFd := by
  fun_induction flush c io with
  | case1 => rfl
  | case2 => rfl
  | case3 => rfl
  | case4 => rfl
  | case5 => rfl
  | case6 _ _ _ _ _ _ _ _ _ _ ih => exact ih

theorem socketFd_send (c : TCPConnection) (data : Bytes) (alloc : Bool) (io : ℕ → SendOutcome) :
    (c.send data alloc io).1.1.socketFd = c.socketFd := by
  unfold send
  split
  · rfl
  · dsimp only
    split <;> exact socketFd_flush _ io

/-- Closing leaves the queue as it is. -/
theorem connectionBuffer_close (c : TCPConnection) :
    c.close.connectionBuffer = c.connectionBuffer := by
  unfold close
  split <;> rfl

/-- The counter of a flush goes up by what the socket took. -/
theorem bytesSent_flush (c : TCPConnection) (io : ℕ → SendOutcome) :
    (c.flush io).conn.bytesSent = c.bytesSent + .ofNat (c.flush io).wire.length := by
  fun_induction flush c io with
  | case1 => exact (UInt64.add_zero _).symm
  | case2 => exact (UInt64.add_zero _).symm
  | case3 => exact (UInt64.add_zero _).symm
  | case4 c io _ view _ n _ hn =>
    show c.bytesSent + .ofNat n = c.bytesSent + .ofNat (view.take n).length
    rw [List.length_take, Nat.min_eq_left (Nat.le_of_lt hn)]
  | case5 => exact (UInt64.add_zero _).symm
  | case6 c io _ view _ _ _ _ _ r ih =>
    show r.conn.bytesSent = c.bytesSent + .ofNat (view ++ r.wire).length
    rw [ih, List.length_append, UInt64.ofNat_add, UInt64.add_assoc]

/-- **The socket fails before it falls short**: it reports an error for one of the
chunks and takes all of those before. -/
def SocketFails (chunks : List Bytes) (io : ℕ → SendOutcome) : Prop :=
  ∃ k < chunks.length, (∃ e, io k = .failed e) ∧
    ∀ j < k, ∀ chunk ∈ chunks[j]?, ∃ n, io j = .sent n ∧ chunk.length ≤ n

theorem not_socketFails_nil (io : ℕ → SendOutcome) : ¬ SocketFails [] io := by
  rintro ⟨k, hk, -⟩
  exact absurd hk (Nat.not_lt_zero k)

theorem socketFails_cons_of_failed {chunk : Bytes} {rest : List Bytes} {io : ℕ → SendOutcome}
    {e : SocketError} (h : io 0 = .failed e) : SocketFails (chunk :: rest) io :=
  ⟨0, Nat.succ_pos _, ⟨e, h⟩, fun j hj => absurd hj (Nat.not_lt_zero j)⟩

theorem not_socketFails_cons_of_lt {chunk : Bytes} {rest : List Bytes} {io : ℕ → SendOutcome}
    {n : ℕ} (h : io 0 = .sent n) (hn : n < chunk.length) : ¬ SocketFails (chunk :: rest) io := by
  rintro ⟨k, -, ⟨e, he⟩, hall⟩
  cases k with
  | zero =>
    rw [h] at he
    cases he
  | succ k =>
    obtain ⟨m, hm, hle⟩ := hall 0 (Nat.succ_pos k) chunk rfl
    rw [h] at hm
    cases hm
    omega

theorem socketFails_cons_of_le {chunk : Bytes} {rest : List Bytes} {io : ℕ → SendOutcome}
    {n : ℕ} (h : io 0 = .sent n) (hn : chunk.length ≤ n) :
    SocketFails (chunk :: rest) io ↔ SocketFails rest fun k => io (k + 1) := by
  constructor
  · rintro ⟨k, hk, ⟨e, he⟩, hall⟩
    cases k with
    | zero =>
      rw [h] at he
      cases he
    | succ k =>
      exact ⟨k, Nat.lt_of_succ_lt_succ hk, ⟨e, he⟩, fun j hj c hc =>
        hall (j + 1) (Nat.succ_lt_succ hj) c hc⟩
  · rintro ⟨k, hk, he, hall⟩
    refine ⟨k + 1, Nat.succ_lt_succ hk, he, fun j hj c hc => ?_⟩
    cases j with
    | zero =>
      cases hc
      exact ⟨n, h, hn⟩
    | succ j => exact hall j (Nat.lt_of_succ_lt_succ hj) c hc

/-- **A flush moves bytes from the queue to the wire**, and nothing else: what the
socket took and what is left are what was pending. It reports an error exactly if
the socket fails before it falls short. -/
structure FlushSpec (c : TCPConnection) (io : ℕ → SendOutcome) (r : Flushed) : Prop where
  wellFormed : r.conn.connectionBuffer.WellFormed
  wire_append : r.wire ++ r.conn.pending = c.pending
  error_iff : r.error ≠ none ↔ SocketFails c.unsent io

theorem flush_spec {c : TCPConnection} (h : c.connectionBuffer.WellFormed)
    (io : ℕ → SendOutcome) : FlushSpec c io (c.flush io) := by
  -- the loop takes one chunk off the queue in each round that is not the last
  induction hu : c.connectionBuffer.unsent generalizing c io with
  | nil =>
    have hempty := h.isSendQueueEmpty_iff.mpr hu
    rw [flush, if_pos hempty]
    refine ⟨h, rfl, ?_⟩
    rw [unsent, hu]
    exact iff_of_false (fun hne => hne rfl) (not_socketFails_nil io)
  | cons chunk rest ih =>
    have hempty : ¬ c.connectionBuffer.isSendQueueEmpty = true := by
      rw [h.isSendQueueEmpty_iff, hu]
      exact List.cons_ne_nil _ _
    have hview := h.peekSend_eq hu
    have hlen : chunk.length ≠ 0 := fun h0 =>
      h.unsent_ne_nil chunk (by rw [hu]; exact List.mem_cons_self) (List.length_eq_zero_iff.mp h0)
    have hpending : c.pending = chunk ++ rest.flatten := by
      rw [pending, ConnectionBufferManager.pending, hu, List.flatten_cons]
    rw [flush, if_neg hempty]
    simp only [hview, dif_neg hlen]
    cases hio : io 0 with
    | failed e =>
      refine ⟨h, rfl, ?_⟩
      rw [unsent, hu]
      exact iff_of_true (Option.some_ne_none e) (socketFails_cons_of_failed hio)
    | sent n =>
      by_cases hn : n < chunk.length
      · have hfails : ¬ SocketFails c.unsent io := by
          rw [unsent, hu]
          exact not_socketFails_cons_of_lt hio hn
        simp only [if_pos hn]
        by_cases hpos : 0 < n
        · obtain ⟨hwf, hleft⟩ := h.consumeSend_of_lt hu hpos hn
          rw [if_pos hpos]
          refine ⟨hwf, ?_, iff_of_false (fun hne => hne rfl) hfails⟩
          show chunk.take n ++ (c.connectionBuffer.consumeSend n).unsent.flatten = c.pending
          rw [hleft, hpending, List.flatten_cons, ← List.append_assoc, List.take_append_drop]
        · rw [if_neg hpos]
          exact ⟨h, rfl, iff_of_false (fun hne => hne rfl) hfails⟩
      · obtain ⟨hwf, hleft⟩ := h.consumeSend_length hu
        simp only [if_neg hn]
        have hrec := ih (c := { c with
          connectionBuffer := c.connectionBuffer.consumeSend chunk.length
          bytesSent := c.bytesSent + .ofNat chunk.length }) hwf (fun k => io (k + 1)) hleft
        refine ⟨hrec.wellFormed, ?_, ?_⟩
        · rw [List.append_assoc, hrec.wire_append, hpending]
          show chunk ++ (c.connectionBuffer.consumeSend chunk.length).unsent.flatten = _
          rw [hleft]
        · rw [hrec.error_iff, unsent, unsent, hu,
            socketFails_cons_of_le hio (Nat.le_of_not_lt hn), hleft]

/-- **What `send` does** on an open connection: what `enqueueSend` accepts is added
to the wire and the queue, and the result is that of the flush. -/
theorem send_spec {c : TCPConnection} (h : c.connectionBuffer.WellFormed)
    (hc : c.state = .connected) (data : Bytes) (alloc : Bool) (io : ℕ → SendOutcome) :
    let r := c.send data alloc io
    r.1.1.connectionBuffer.WellFormed
      ∧ r.1.2 ++ r.1.1.pending
        = c.pending ++ (c.connectionBuffer.enqueued data alloc).flatten
      ∧ ((∀ e, r.2 ≠ .error e) ↔
        ¬ SocketFails (c.unsent ++ c.connectionBuffer.enqueued data alloc) io) := by
  obtain ⟨hwf, hunsent, hmax, -⟩ := h.enqueueSend_eq data alloc
  have hflush := flush_spec
    (c := { c with connectionBuffer := (c.connectionBuffer.enqueueSend data alloc).1 }) hwf io
  have hpending : (c.connectionBuffer.enqueueSend data alloc).1.pending
      = c.pending ++ (c.connectionBuffer.enqueued data alloc).flatten := by
    rw [ConnectionBufferManager.pending, hunsent, List.flatten_append]
    rfl
  have herror := hflush.error_iff
  rw [unsent, hunsent] at herror
  have hwire := hflush.wire_append
  rw [pending, pending, hpending] at hwire
  unfold send
  rw [if_neg (not_not.mpr hc)]
  simp only
  cases he : (flush { c with
      connectionBuffer := (c.connectionBuffer.enqueueSend data alloc).1 } io).error with
  | none =>
    refine ⟨hflush.wellFormed, hwire, ?_⟩
    rw [unsent, ← herror, he]
    refine iff_of_true (fun e herr => ?_) (fun hne => hne rfl)
    cases herr
  | some e =>
    refine ⟨hflush.wellFormed, hwire, ?_⟩
    rw [unsent, ← herror, he]
    exact iff_of_false (fun hall => hall e rfl) (fun hno => hno (Option.some_ne_none e))

/-- **A message that the socket takes at once** is on the wire, and nothing is left. -/
theorem send_taken {c : TCPConnection} {data : Bytes} (hc : c.state = .connected)
    (hempty : c.connectionBuffer.sendQueue = []) (hzero : c.connectionBuffer.sendConsumed = 0)
    (hroom : UInt64.ofNat data.length ≤ c.connectionBuffer.maxSendQueueSize) :
    (c.send data true fun _ => .sent data.length).1.2 = data
      ∧ (c.send data true fun _ => .sent data.length).1.1.pending = [] := by
  have hlt := UInt64.not_lt.mpr hroom
  by_cases hlength : data.length = 0
  · rw [List.length_eq_zero_iff] at hlength
    simp [send, hc, ConnectionBufferManager.enqueueSend, flush, hempty, hzero, hlength,
      ConnectionBufferManager.isSendQueueEmpty, pending, ConnectionBufferManager.pending,
      ConnectionBufferManager.unsent, ConnectionBufferManager.unsentFrom]
  · simp [send, hc, ConnectionBufferManager.enqueueSend, flush, hempty, hzero, hlength, hlt,
      ConnectionBufferManager.getSendQueueSize, ConnectionBufferManager.isSendQueueEmpty,
      ConnectionBufferManager.peekSend, ConnectionBufferManager.consumeSend,
      ConnectionBufferManager.consumeSendLoop, pending, ConnectionBufferManager.pending,
      ConnectionBufferManager.unsent, ConnectionBufferManager.unsentFrom]

/-! ## Runs of sends and flushes -/

/-- The calls of a run, with the outcomes of the allocation and of the socket. -/
inductive SendCall
  | send (data : Bytes) (alloc : Bool) (io : ℕ → SendOutcome)
  | flush (io : ℕ → SendOutcome)

/-- A connection with what the socket has taken so far and with the data, in call
order, of the `send`s that returned a value. -/
structure Session where
  conn : TCPConnection
  wire : Bytes
  returned : Bytes

/-- One call; what the caller sees of a flush is its error code. -/
def Session.call (s : Session) : SendCall → Session × Except SocketError ℕ
  | .send data alloc io =>
    let r := s.conn.send data alloc io
    match r.2 with
    | .ok len => (⟨r.1.1, s.wire ++ r.1.2, s.returned ++ data⟩, .ok len)
    | .error e => (⟨r.1.1, s.wire ++ r.1.2, s.returned⟩, .error e)
  | .flush io =>
    let r := s.conn.flush io
    match r.error with
    | none => (⟨r.conn, s.wire ++ r.wire, s.returned⟩, .ok 0)
    | some e => (⟨r.conn, s.wire ++ r.wire, s.returned⟩, .error e)

def sendMachine : Machine Session SendCall (Except SocketError ℕ) :=
  ⟨fun s call => some (s.call call)⟩

/-- A session at its start. -/
def Session.start (fd : ℤ) (maxSendQueueSize : UInt64) : Session :=
  ⟨ofFd fd maxSendQueueSize, [], []⟩

/-- **Every byte that was reported as sent is on the wire or pending**, in order,
and no other is. -/
def Session.Exact (s : Session) : Prop := s.wire ++ s.conn.pending = s.returned

/-- **The calls whose result tells the fate of the data**: a `send` of no data, one
whose data are accepted while the socket does not fail, and one whose data are
rejected while it does. -/
def Session.Truthful (s : Session) : SendCall → Prop
  | .send data alloc io =>
    data = [] ∨ (s.conn.connectionBuffer.Accepts data alloc ↔
      ¬ SocketFails (s.conn.unsent ++ s.conn.connectionBuffer.enqueued data alloc) io)
  | .flush _ => True

/-- The states of a run that has been exact so far. -/
structure Session.Sound (s : Session) : Prop where
  wellFormed : s.conn.connectionBuffer.WellFormed
  connected : s.conn.state = .connected
  exact_eq : s.Exact

theorem Session.start_sound (fd : ℤ) (maxSendQueueSize : UInt64) :
    (Session.start fd maxSendQueueSize).Sound :=
  ⟨⟨nofun, nofun, fun _ => rfl⟩, rfl, rfl⟩

/-- The result of a `send` says whether the data count as sent. -/
theorem Session.call_send (s : Session) (data : Bytes) (alloc : Bool) (io : ℕ → SendOutcome) :
    (s.call (.send data alloc io)).1.conn = (s.conn.send data alloc io).1.1
      ∧ (s.call (.send data alloc io)).1.wire = s.wire ++ (s.conn.send data alloc io).1.2
      ∧ ((∀ e, (s.conn.send data alloc io).2 ≠ .error e) →
        (s.call (.send data alloc io)).1.returned = s.returned ++ data)
      ∧ ((¬ ∀ e, (s.conn.send data alloc io).2 ≠ .error e) →
        (s.call (.send data alloc io)).1.returned = s.returned) := by
  cases hr : (s.conn.send data alloc io).2 with
  | ok len =>
    simp [Session.call, hr]
  | error e =>
    simp [Session.call, hr]

/-- **One `send` keeps the account exact exactly if it is truthful.** -/
theorem Session.Sound.call_send_iff {s : Session} (h : s.Sound) (data : Bytes) (alloc : Bool)
    (io : ℕ → SendOutcome) :
    (s.call (.send data alloc io)).1.Exact ↔ s.Truthful (.send data alloc io) := by
  obtain ⟨-, hwire, hres⟩ := send_spec h.wellFormed h.connected data alloc io
  obtain ⟨hconn, hw, hok, herr⟩ := s.call_send data alloc io
  have hexact : s.wire ++ s.conn.pending = s.returned := h.exact_eq
  have hleft : (s.call (.send data alloc io)).1.wire
      ++ (s.call (.send data alloc io)).1.conn.pending
        = s.returned ++ (s.conn.connectionBuffer.enqueued data alloc).flatten := by
    rw [hw, hconn, List.append_assoc, hwire, ← List.append_assoc, hexact]
  unfold Session.Exact Session.Truthful
  rw [hleft]
  by_cases hnil : data = []
  · subst hnil
    have hq : (s.conn.connectionBuffer.enqueued [] alloc).flatten = [] := by
      simp [ConnectionBufferManager.enqueued]
    refine iff_of_true ?_ (Or.inl rfl)
    by_cases hf : ∀ e, (s.conn.send [] alloc io).2 ≠ .error e
    · rw [hok hf, hq]
    · rw [herr hf, hq, List.append_nil]
  -- the data are queued or not, and counted as sent or not
  by_cases ha : s.conn.connectionBuffer.Accepts data alloc <;>
    by_cases hf : ∀ e, (s.conn.send data alloc io).2 ≠ .error e
  · have hq : (s.conn.connectionBuffer.enqueued data alloc).flatten = data := by
      simp [ConnectionBufferManager.enqueued, hnil, ha]
    exact iff_of_true (by rw [hok hf, hq]) (Or.inr (iff_of_true ha (hres.mp hf)))
  · have hq : (s.conn.connectionBuffer.enqueued data alloc).flatten = data := by
      simp [ConnectionBufferManager.enqueued, hnil, ha]
    refine iff_of_false ?_ ?_
    · rw [herr hf, hq]
      exact fun he => hnil (List.append_right_eq_self.mp he)
    · rintro (he | he)
      · exact hnil he
      · exact hf (hres.mpr (he.mp ha))
  · have hq : (s.conn.connectionBuffer.enqueued data alloc).flatten = [] := by
      simp [ConnectionBufferManager.enqueued, ha]
    refine iff_of_false ?_ ?_
    · rw [hok hf, hq, List.append_nil]
      exact fun he => hnil (List.append_right_eq_self.mp he.symm)
    · rintro (he | he)
      · exact hnil he
      · exact ha (he.mpr (hres.mp hf))
  · have hq : (s.conn.connectionBuffer.enqueued data alloc).flatten = [] := by
      simp [ConnectionBufferManager.enqueued, ha]
    refine iff_of_true (by rw [herr hf, hq, List.append_nil]) (Or.inr ?_)
    exact iff_of_false ha fun hno => hf (hres.mpr hno)

/-- A flush keeps the account exact. -/
theorem Session.Sound.call_flush {s : Session} (h : s.Sound) (io : ℕ → SendOutcome) :
    (s.call (.flush io)).1.Sound := by
  have hspec := flush_spec h.wellFormed io
  have hexact : s.wire ++ s.conn.pending = s.returned := h.exact_eq
  have hnext : s.wire ++ (s.conn.flush io).wire ++ (s.conn.flush io).conn.pending
      = s.returned := by
    rw [List.append_assoc, hspec.wire_append, hexact]
  have hstate := (state_flush s.conn io).trans h.connected
  cases he : (s.conn.flush io).error with
  | none =>
    simp only [Session.call, he]
    exact ⟨hspec.wellFormed, hstate, hnext⟩
  | some e =>
    simp only [Session.call, he]
    exact ⟨hspec.wellFormed, hstate, hnext⟩

/-- **When `send` is exactly-once with respect to its result.** In a run of sends
and flushes, with any outcomes of the socket and of the allocations and with any
limit, what the socket has taken followed by what is pending is at every point the
data of the sends that returned a value, exactly if every call of the run is
truthful. -/
theorem send_exact_iff (fd : ℤ) (maxSendQueueSize : UInt64) (calls : List SendCall) :
    sendMachine.Always Session.Exact (.start fd maxSendQueueSize) calls ↔
      sendMachine.Along Session.Truthful (.start fd maxSendQueueSize) calls := by
  refine Machine.always_iff_along (I := Session.Sound) (fun s h => h.exact_eq) ?_ ?_
    (Session.start_sound fd maxSendQueueSize)
  · rintro s call r h hc hr
    cases hr
    cases call with
    | send data alloc io =>
      have hwf := (send_spec h.wellFormed h.connected data alloc io).1
      have hstate := (state_send s.conn data alloc io).trans h.connected
      have hconn := (s.call_send data alloc io).1
      exact ⟨hconn ▸ hwf, hconn ▸ hstate, (h.call_send_iff data alloc io).mpr hc⟩
    | flush io => exact h.call_flush io
  · rintro s call r h hc hr
    cases hr
    cases call with
    | send data alloc io => exact fun he => hc ((h.call_send_iff data alloc io).mp he)
    | flush io => exact absurd trivial hc

/-- A socket that would block at once turns a queued message into an error, and a
full queue turns a dropped one into a success. -/
theorem send_not_exact :
    ¬ sendMachine.Always Session.Exact (.start 3 4) [.send [1, 2] true fun _ => .failed .again]
    ∧ ¬ sendMachine.Always Session.Exact (.start 3 4)
      [.send [1, 2, 3, 4, 5] true fun _ => .sent 8] := by
  constructor
  · intro h
    have hexact := h.2 _ rfl
    simp [Machine.Always, Session.Exact, Session.call, Session.start, ofFd, send, flush,
      ConnectionBufferManager.enqueueSend, ConnectionBufferManager.isSendQueueEmpty,
      ConnectionBufferManager.peekSend, pending, ConnectionBufferManager.pending,
      ConnectionBufferManager.unsent] at hexact
  · intro h
    have hexact := h.2 _ rfl
    simp [Machine.Always, Session.Exact, Session.call, Session.start, ofFd, send, flush,
      ConnectionBufferManager.enqueueSend, ConnectionBufferManager.isSendQueueEmpty,
      pending, ConnectionBufferManager.pending,
      ConnectionBufferManager.unsent] at hexact

end TCPConnection
