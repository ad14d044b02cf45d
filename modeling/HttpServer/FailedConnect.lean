import HttpServer.ConnectionLife

/-!
# Connecting again after a failure

`Connect` of `core/Tcp/tcp_connection.cpp`, called again and again on a connection that is
not connected. `openSocket` of `ConnectionLife` has the part that opens and closes
descriptors; around it are the two addresses and the guard at the head of the call, which
lets nobody through unless the state is `DISCONNECTED`.

A failure closes the descriptor that has been opened, but it sets the state to `ERROR`, and
nothing that `Connect` does sets it back. So a connection is lost with its first failure:
`connect_failed_first` says what is left of it, and `reusable_iff` that an attempt leaves the
connection as it was only where it does not fail.
-/

/-- `TCPConnection` with `peer_addr_` and `local_addr_`. -/
structure Connecting (Addr : Type*) where
  life : ConnectionLife
  peerAddr : Addr
  localAddr : Addr
  deriving DecidableEq, Repr

/-- A call of `Connect` with what the io handler answers: `CreateSocket`, `Connect` (the error,
if there is one) and `GetLocalAddress`. -/
structure ConnectTry (Addr : Type*) where
  addr : Addr
  socket : Except SocketError ℕ
  result : Option SocketError
  localAddress : Option Addr

/-- Both calls of the io handler that can fail succeed. -/
def ConnectTry.Succeeds {Addr : Type*} (a : ConnectTry Addr) : Prop :=
  (∃ fd, a.socket = .ok fd) ∧ a.result = none

namespace Connecting

variable {Addr : Type*}

/-! ## The source -/

/-- `Connect`, and the error it returns. The reader that `init` starts is left out. -/
def connect (c : Connecting Addr) (a : ConnectTry Addr) :
    Connecting Addr × Option ConnectError :=
  if c.life.conn.state ≠ .disconnected then (c, some .alreadyConnected)
  else
    let r := c.life.openSocket a.socket a.result
    let peerAddr := match a.socket with
      | .error _ => c.peerAddr
      | .ok _ => a.addr
    match r.2 with
    | some e => ({ c with life := r.1, peerAddr }, some e)
    | none =>
      (⟨r.1.triggerEvent .connected, peerAddr, a.localAddress.getD c.localAddr⟩, none)

/-- `GetState`. -/
def getState (c : Connecting Addr) : ConnectionState := c.life.conn.state

/-- `GetFd`. -/
def getFd (c : Connecting Addr) : ℤ := c.life.conn.socketFd

/-- One attempt after the other. -/
def machine : Machine (Connecting Addr) (ConnectTry Addr) (Option ConnectError) where
  step c a := some (c.connect a)

/-! ## What a failure must leave -/

/-- The descriptors that have not been closed. -/
def openDescriptors (c : Connecting Addr) : List Descriptor :=
  c.life.descriptors.filter fun d => d.closes = 0

/-- **An attempt leaves the connection reusable**: if it fails, it leaves things as they were,
without a descriptor; and it is only rejected where there is a connection. -/
structure Reusable (c : Connecting Addr) (a : ConnectTry Addr) : Prop where
  as_before : c.getState = .disconnected → (c.connect a).2 ≠ none →
    (c.connect a).1.getState = .disconnected ∧ (c.connect a).1.getFd = -1
      ∧ (c.connect a).1.peerAddr = c.peerAddr
      ∧ (c.connect a).1.openDescriptors = c.openDescriptors
  attempted : (c.connect a).2 = some .alreadyConnected → c.getState = .connected

/-! ## One attempt -/

variable {c : Connecting Addr} {a : ConnectTry Addr}

/-- The guard lets nobody through. -/
theorem connect_of_ne (h : c.getState ≠ .disconnected) :
    c.connect a = (c, some .alreadyConnected) := if_pos h

/-- An attempt that succeeds. -/
theorem connect_of_succeeds (h : c.getState = .disconnected) (ha : a.Succeeds) :
    (c.connect a).2 = none ∧ (c.connect a).1.getState = .connected := by
  obtain ⟨⟨fd, hsocket⟩, hresult⟩ := ha
  have hr : c.life.openSocket a.socket a.result =
      ({ c.life with
          conn := { c.life.conn with socketFd := fd, state := .connected }
          descriptors := ⟨fd, 0⟩ :: c.life.descriptors
          established := c.life.established + 1 }, none) := by
    rw [hsocket, hresult]
    rfl
  have hguard : ¬ c.life.conn.state ≠ .disconnected := not_not.mpr h
  rw [connect, if_neg hguard, hr]
  exact ⟨rfl, rfl⟩

/-- **What a failure leaves**: the descriptor that has been opened is closed again, but the state
is `ERROR`, and the peer address is the new one if a socket had been created. -/
theorem connect_of_not_succeeds (h : c.getState = .disconnected) (ha : ¬ a.Succeeds) :
    (∃ e, (c.connect a).2 = some (.socket e)) ∧ (c.connect a).1.getState = .error
      ∧ (c.connect a).1.openDescriptors = c.openDescriptors
      ∧ (∀ fd, a.socket = .ok fd →
        (c.connect a).1.getFd = -1 ∧ (c.connect a).1.peerAddr = a.addr) := by
  have hguard : ¬ c.life.conn.state ≠ .disconnected := not_not.mpr h
  unfold connect
  rw [if_neg hguard]
  cases hsocket : a.socket with
  | error e => exact ⟨⟨e, rfl⟩, rfl, rfl, fun fd hfd => by cases hfd⟩
  | ok fd =>
    cases hresult : a.result with
    | none => exact absurd ⟨⟨fd, hsocket⟩, hresult⟩ ha
    | some e =>
      refine ⟨⟨e, rfl⟩, rfl, ?_, fun _ _ => ⟨rfl, rfl⟩⟩
      show (closeSocket (⟨fd, 0⟩ :: c.life.descriptors) fd).filter _ = _
      rw [closeSocket, if_pos rfl]
      rfl

/-- **An attempt on a connection that is not connected leaves it reusable exactly if it
succeeds.** -/
theorem reusable_iff_succeeds (h : c.getState = .disconnected) : c.Reusable a ↔ a.Succeeds := by
  constructor
  · intro hr
    by_contra hn
    obtain ⟨⟨e, he⟩, hstate, -⟩ := connect_of_not_succeeds h hn
    have hback := (hr.as_before h (by rw [he]; exact Option.some_ne_none _)).1
    rw [hstate] at hback
    cases hback
  · intro ha
    obtain ⟨hnone, -⟩ := connect_of_succeeds h ha
    refine ⟨fun _ hne => absurd hnone hne, fun hrejected => ?_⟩
    rw [hnone] at hrejected
    cases hrejected

/-! ## Sequences of attempts -/

/-- Once there is a connection, the attempts are rejected, and rightly so. -/
theorem reusable_of_connected (h : c.getState = .connected) (calls : List (ConnectTry Addr)) :
    machine.Along Reusable c calls := by
  refine Machine.along_of_along (I := fun c => c.getState = .connected) (C := fun _ _ => True)
    ?_ ?_ h (Machine.along_true c calls)
  · intro c a r h _ hr
    cases hr
    rw [connect_of_ne (by rw [h]; decide)]
    exact h
  · intro c a r h _ _
    refine ⟨fun hd => ?_, fun _ => h⟩
    rw [h] at hd
    cases hd

/-- **In a sequence of attempts every one leaves the connection reusable exactly if the first
does not fail.** -/
theorem reusable_iff (c : Connecting Addr) (h : c.getState = .disconnected)
    (calls : List (ConnectTry Addr)) :
    machine.Along Reusable c calls ↔ ∀ a ∈ calls.head?, a.Succeeds := by
  cases calls with
  | nil => simp [Machine.Along]
  | cons a calls =>
    rw [Machine.along_cons (r := c.connect a) rfl, reusable_iff_succeeds h]
    simp only [List.head?_cons, Option.mem_def, Option.some.injEq, forall_eq']
    refine ⟨fun hall => hall.1, fun ha => ⟨ha, ?_⟩⟩
    exact reusable_of_connected (connect_of_succeeds h ha).2 calls

/-- A new connection to a port of some address. -/
def fresh : Connecting (String × ℕ) := ⟨.ofAddress, ("", 0), ("", 0)⟩

/-- The peer refuses the connection at first and accepts it later. -/
def refusedOnce : List (ConnectTry (String × ℕ)) :=
  [⟨("127.0.0.1", 8080), .ok 3, some (.other 111), none⟩, ⟨("127.0.0.1", 8080), .ok 3, none, none⟩]

/-- The second attempt is not made. -/
theorem refusedOnce_not_reusable : fresh.getState = .disconnected
    ∧ ¬ machine.Along Reusable fresh refusedOnce
    ∧ (machine.run fresh refusedOnce).map (fun q => (q.1.getState, q.1.peerAddr, q.2))
      = some (.error, ("127.0.0.1", 8080),
        [some (.socket (.other 111)), some .alreadyConnected]) := by
  refine ⟨rfl, fun h => ?_, rfl⟩
  have hfirst := (h _ rfl).1
  have hback := (hfirst.as_before rfl (by decide)).1
  cases hback

/-- The equivalence on that sequence. -/
theorem reusable_iff_refusedOnce :
    machine.Along Reusable fresh refusedOnce ↔ ∀ a ∈ refusedOnce.head?, a.Succeeds :=
  reusable_iff fresh rfl refusedOnce

end Connecting
