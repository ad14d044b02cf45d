import HttpServer.Machine
import HttpServer.TcpConnection

/-!
# The life cycle of a TCP connection

`Connect`, `Disconnect` and `Close` of `core/Tcp/tcp_connection.cpp`, the destructor, and the
reader thread that `init` starts. The three calls hold `state_mutex_` from their first line to
their last, but the state is an atomic that the reader looks at without the mutex, and events
are triggered in the middle of a call. So each call is taken apart into what it does up to the
next point that can be seen from outside; who holds the mutex is at one of these points, and
the readers take their own steps in between.

`Disconnect` shuts the socket down and keeps the descriptor, after which a new `Connect` is
allowed. A reader that has been started stays until it finds the state changed, or the socket
at its end; it may well outlive its connection and read on for the next one.
-/

/-! ## Descriptors -/

/-- A file descriptor that the connection has come by, and how often it has been closed. -/
structure Descriptor where
  number : ℕ
  closes : ℕ := 0
  deriving DecidableEq, Repr

/-- `CloseSocket`, on the descriptors from the newest on: a number stands for the newest of
those that have it. -/
def closeSocket : List Descriptor → ℤ → List Descriptor
  | [], _ => []
  | d :: ds, fd =>
    if d.number = fd then { d with closes := d.closes + 1 } :: ds else d :: closeSocket ds fd

/-- A number that is in use; `CreateSocket` returns another one. -/
def IsOpenNumber (ds : List Descriptor) (n : ℕ) : Prop := ∃ d ∈ ds, d.number = n ∧ d.closes = 0

instance (ds : List Descriptor) (n : ℕ) : Decidable (IsOpenNumber ds n) :=
  inferInstanceAs (Decidable (∃ d ∈ ds, d.number = n ∧ d.closes = 0))

/-! ## The source -/

/-- `ConnectionEvent`, as far as the life cycle goes. -/
inductive ConnectionEvent
  | connected
  | disconnected
  | closed
  deriving DecidableEq, Repr

/-- What `Connect` fails with. -/
inductive ConnectError
  | alreadyConnected
  | socket (e : SocketError)
  deriving DecidableEq, Repr

/-- `TCPConnection` with its descriptors, how often a connection has been established, and
the events that have been triggered, each with the number of the connection it fell into. -/
structure ConnectionLife where
  conn : TCPConnection
  descriptors : List Descriptor
  established : ℕ
  events : List (ℕ × ConnectionEvent) := []
  deriving DecidableEq, Repr

theorem TCPConnection.close_eq {c : TCPConnection} (h : 0 ≤ c.socketFd) :
    c.close = { c with socketFd := -1, state := .closing } := by
  rw [close, if_pos h]

namespace ConnectionLife

variable (c : ConnectionLife)

/-- The constructor for a connection that is to be made. -/
def ofAddress : ConnectionLife := ⟨⟨.disconnected, -1, {}, 0⟩, [], 0, []⟩

/-- The constructor from a file descriptor. -/
def ofDescriptor (fd : ℕ) : ConnectionLife := ⟨⟨.connected, fd, {}, 0⟩, [⟨fd, 0⟩], 1, []⟩

/-- The state is set. -/
def setState (state : ConnectionState) : ConnectionLife := { c with conn := { c.conn with state } }

/-- `TriggerEvent`: the private callback and the dispatcher. -/
def triggerEvent (e : ConnectionEvent) : ConnectionLife :=
  { c with events := c.events ++ [(c.established, e)] }

/-- `Connect` from `CreateSocket` to where the state is set. -/
def openSocket (socket : Except SocketError ℕ) (result : Option SocketError) :
    ConnectionLife × Option ConnectError :=
  match socket with
  | .error e => (c.setState .error, some (.socket e))
  | .ok fd =>
    let descriptors := ⟨fd, 0⟩ :: c.descriptors
    match result with
    | some e =>
      ({ c with
          conn := { c.conn with socketFd := -1, state := .error }
          descriptors := closeSocket descriptors fd }, some (.socket e))
    | none =>
      ({ c with
          conn := { c.conn with socketFd := fd, state := .connected }
          descriptors, established := c.established + 1 }, none)

/-- `Close` up to where the state is set. -/
def closeDescriptor : ConnectionLife :=
  { c with conn := c.conn.close, descriptors := closeSocket c.descriptors c.conn.socketFd }

/-- The destructor; the connection is gone by then for those who are told of events. -/
def destroy : ConnectionLife := if 0 ≤ c.conn.socketFd then c.closeDescriptor else c

end ConnectionLife

/-! ## Threads -/

/-- Where in its call the thread is that holds `state_mutex_`. -/
inductive Stage
  /-- `Disconnect`, behind `ShutdownSocket` -/
  | disconnectTrigger
  /-- `Disconnect`, behind its event -/
  | disconnectEnd
  /-- `Close`, before its event -/
  | closeTrigger
  /-- `Connect`, before `init` -/
  | connectInit
  /-- `Connect`, before its event -/
  | connectTrigger
  deriving DecidableEq, Repr

/-- Where a reader is: at the test of its loop, in `recv`, behind the loop, or finished. -/
inductive LoopPoint
  | test
  | recv
  | leaving
  | finished
  deriving DecidableEq, Repr

/-- What `recv` returns: bytes, the end of the stream, `EAGAIN`, or another error. -/
inductive RecvResult
  | data
  | endOfStream
  | again
  | error
  deriving DecidableEq, Repr

/-- Where a result of `recv` leads. -/
def RecvResult.next : RecvResult → LoopPoint
  | .data => .test
  | .endOfStream => .leaving
  | .again => .test
  | .error => .leaving

/-- A connection with its threads. -/
structure LifeRun where
  life : ConnectionLife
  holder : Option Stage := none
  readers : List LoopPoint := []
  deriving DecidableEq, Repr

/-- The steps: a thread enters a call, the one in the middle of a call goes on, or a reader
does. -/
inductive LifeStep
  | connect (socket : Except SocketError ℕ) (result : Option SocketError)
  | disconnect
  | close
  | send (data : Bytes) (alloc : Bool) (io : ℕ → SendOutcome)
  | proceed
  | readerTest (i : ℕ)
  | readerRecv (i : ℕ) (r : RecvResult)
  | readerTrigger (i : ℕ)

/-- What a step returns to its caller. -/
inductive LifeReply
  | done
  | refused (e : ConnectError)
  | sent (r : Except SocketError ℕ)

namespace LifeRun

variable (s : LifeRun)

/-- `Connect`, which takes the mutex. -/
def connect (socket : Except SocketError ℕ) (result : Option SocketError) :
    LifeRun × LifeReply :=
  if s.life.conn.state ≠ .disconnected then (s, .refused .alreadyConnected)
  else
    match s.life.openSocket socket result with
    | (life, some e) => ({ s with life }, .refused e)
    | (life, none) => ({ s with life, holder := some .connectInit }, .done)

/-- `Disconnect`, which takes the mutex. -/
def disconnect : LifeRun :=
  if s.life.conn.state ≠ .connected then s
  else { s with life := s.life.setState .disconnecting, holder := some .disconnectTrigger }

/-- `Close`, which takes the mutex. -/
def close : LifeRun :=
  if 0 ≤ s.life.conn.socketFd then
    { s with life := s.life.closeDescriptor, holder := some .closeTrigger }
  else s

/-- What the thread in the middle of a call does next. -/
def proceed : Stage → LifeRun
  | .disconnectTrigger =>
    { s with life := s.life.triggerEvent .disconnected, holder := some .disconnectEnd }
  | .disconnectEnd => { s with life := s.life.setState .disconnected, holder := none }
  | .closeTrigger => { s with life := s.life.triggerEvent .closed, holder := none }
  | .connectInit => { s with readers := s.readers ++ [.test], holder := some .connectTrigger }
  | .connectTrigger => { s with life := s.life.triggerEvent .connected, holder := none }

/-- `Send`, which takes the mutex and is through when it lets go of it. -/
def send (data : Bytes) (alloc : Bool) (io : ℕ → SendOutcome) : LifeRun × LifeReply :=
  let r := s.life.conn.send data alloc io
  ({ s with life := { s.life with conn := r.1.1 } }, .sent r.2)

/-- The test of the loop. -/
def readerTest (i : ℕ) : LifeRun :=
  let point : LoopPoint := if s.life.conn.state = .connected then .recv else .leaving
  { s with readers := s.readers.set i point }

/-- `recv`, and what is done with its result. -/
def readerRecv (i : ℕ) (r : RecvResult) : LifeRun :=
  { s with readers := s.readers.set i r.next }

/-- Behind the loop the event is triggered in any case. -/
def readerTrigger (i : ℕ) : LifeRun :=
  { s with life := s.life.triggerEvent .disconnected, readers := s.readers.set i .finished }

/-- **When a step can be taken.** The mutex is free for a call to begin, a number that is in
use is not one that `CreateSocket` returns, and a reader takes its steps in their order. -/
def Enabled : LifeStep → Prop
  | .connect socket _ => s.holder = none ∧
    ∀ fd ∈ socket.toOption, s.life.conn.state = .disconnected → ¬ IsOpenNumber s.life.descriptors fd
  | .disconnect => s.holder = none
  | .close => s.holder = none
  | .send _ _ _ => s.holder = none
  | .proceed => s.holder ≠ none
  | .readerTest i => s.readers[i]? = some .test
  | .readerRecv i _ => s.readers[i]? = some .recv
  | .readerTrigger i => s.readers[i]? = some .leaving

/-- What a step does. -/
def perform : LifeStep → LifeRun × LifeReply
  | .connect socket result => s.connect socket result
  | .disconnect => (s.disconnect, .done)
  | .close => (s.close, .done)
  | .send data alloc io => s.send data alloc io
  | .proceed => (s.holder.elim s s.proceed, .done)
  | .readerTest i => (s.readerTest i, .done)
  | .readerRecv i r => (s.readerRecv i r, .done)
  | .readerTrigger i => (s.readerTrigger i, .done)

instance : (a : LifeStep) → Decidable (s.Enabled a)
  | .connect socket _ => inferInstanceAs (Decidable (s.holder = none ∧ ∀ fd ∈ socket.toOption,
      s.life.conn.state = .disconnected → ¬ IsOpenNumber s.life.descriptors fd))
  | .disconnect => inferInstanceAs (Decidable (s.holder = none))
  | .close => inferInstanceAs (Decidable (s.holder = none))
  | .send _ _ _ => inferInstanceAs (Decidable (s.holder = none))
  | .proceed => inferInstanceAs (Decidable (s.holder ≠ none))
  | .readerTest i => inferInstanceAs (Decidable (s.readers[i]? = some .test))
  | .readerRecv i _ => inferInstanceAs (Decidable (s.readers[i]? = some .recv))
  | .readerTrigger i => inferInstanceAs (Decidable (s.readers[i]? = some .leaving))

end LifeRun

/-- A connection and its threads. -/
def lifeCycle : Machine LifeRun LifeStep LifeReply :=
  ⟨fun s a => if s.Enabled a then some (s.perform a) else none⟩

theorem lifeCycle_step {s : LifeRun} {a : LifeStep} {r : LifeRun × LifeReply} :
    lifeCycle.step s a = some r ↔ s.Enabled a ∧ r = s.perform a := by
  show (if s.Enabled a then some (s.perform a) else none) = some r ↔ _
  split
  · rename_i henabled
    rw [Option.some.injEq, eq_comm, and_iff_right henabled]
  · rename_i hno
    exact iff_of_false nofun fun h => hno h.1

/-- A connection that is to be made, or one from a descriptor with the reader that `init` has
started. -/
inductive LifeRun.IsStart : LifeRun → Prop
  | ofAddress : IsStart { life := .ofAddress }
  | ofDescriptor (fd : ℕ) : IsStart { life := .ofDescriptor fd, readers := [.test] }
