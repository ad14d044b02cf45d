import HttpServer.Connection
import HttpServer.Machine
import Mathlib.Data.List.Chain

/-!
# What a connection says about itself

The whole life of a connection over a socket object: `Connect`, `onConnectComplete`,
`Disconnect`, `Close`, `Send` and the read and write events, in any order and with any answers
of the socket. Three parts have to agree on it. The state machine has a guard on each
transition, `connect` of the socket returns a Boolean, and the event callback is told when the
connection is connected and when it is not any more.

They do not. `SetConnected` refuses a state that is disconnected, which is the one in which
`ConnectInternal` calls it, and its result is dropped: a `Connect` that the socket accepts is
notified and reported as a success, and the state stays disconnected. `closeInternal` notifies
whether there was a connection or not, and the end of the stream is notified a second time.
`truthful_iff` says in which runs the reports are true, and for the socket of the repository
these are the runs in which nothing is ever reported.
-/

/-- A notification about the life of the connection. -/
inductive LifeNotice
  | connected
  | disconnected
  deriving DecidableEq, Repr

/-- The life-cycle notifications among all. -/
def Notice.life : Notice → Option LifeNotice
  | .connected => some .connected
  | .disconnected => some .disconnected
  | _ => none

/-- The calls, with what the socket answers and, for `Connect`, whether `create_socket` gives
a socket if there is none. -/
inductive ConnectionCall
  | connect (created : Bool) (answer : ConnectAnswer)
  | onConnectComplete (err : ℕ)
  | disconnect
  | close
  | send (data : Bytes) (answer : SendAnswer)
  | onReadEvent (answer : RecvAnswer)
  | onWriteEvent (answers : List SendAnswer)
  deriving DecidableEq, Repr

/-- A connection, its life-cycle notifications so far, and the answer of the last call if that
was a `Connect`. -/
structure NoticeRun where
  conn : TcpConnection
  life : List LifeNotice := []
  reply : Option ConnectReply := none

namespace NoticeRun

variable (s : NoticeRun)

/-- The run after a call. -/
def tell (e : Effect) (reply : Option ConnectReply) : NoticeRun :=
  ⟨e.conn, s.life ++ e.notices.filterMap Notice.life, reply⟩

/-- One call. -/
def perform (setDisconnecting : ConnectionState → ConnectionState) :
    ConnectionCall → Option NoticeRun
  | .connect created answer =>
    let r := s.conn.connectInternal created answer
    some (s.tell r.1 (some r.2))
  | .onConnectComplete err => some (s.tell (s.conn.onConnectComplete err) none)
  | .disconnect => some (s.tell (s.conn.disconnect setDisconnecting) none)
  | .close => some (s.tell s.conn.close none)
  | .send data answer => some (s.tell (s.conn.send data answer).1 none)
  | .onReadEvent answer =>
    if answer.Fits s.conn.receiveBuffer.getReceiveBuffer.1.size then
      some (s.tell (s.conn.onReadEvent answer) none)
    else none
  | .onWriteEvent answers => (s.conn.onWriteEvent answers).map fun e => s.tell e none

/-- The last life-cycle notification; without one it is as after a disconnection. -/
def lastLife : LifeNotice := s.life.getLast?.getD .disconnected

/-- **The reports are true**: after a `Connect` that returned success the connection is
connected or connecting; it is connected if that is what it notified last; and the
notifications alternate, beginning with a connection. -/
structure Truthful : Prop where
  reply : s.reply = some (.returned none) →
    s.conn.state = .connected ∨ s.conn.state = .connecting
  last : s.life.getLast? = some .connected → s.conn.state = .connected
  alternate : (LifeNotice.disconnected :: s.life).IsChain (· ≠ ·)

/-- A new connection. -/
def start (socketValid : Bool) : NoticeRun where
  conn := { socketValid }

end NoticeRun

/-- The machine of the calls. -/
def connectionLife (setDisconnecting : ConnectionState → ConnectionState) :
    Machine NoticeRun ConnectionCall Unit where
  step s a := (s.perform setDisconnecting a).map fun t => (t, ())

variable {setDisconnecting : ConnectionState → ConnectionState}

theorem connectionLife_step {s : NoticeRun} {a : ConnectionCall} {r : NoticeRun × Unit} :
    (connectionLife setDisconnecting).step s a = some r
      ↔ s.perform setDisconnecting a = some r.1 := by
  show (s.perform setDisconnecting a).map _ = some r ↔ _
  rw [Option.map_eq_some_iff]
  exact ⟨fun ⟨t, ht, he⟩ => he ▸ ht, fun h => ⟨r.1, h, rfl⟩⟩

namespace ConnectionCall

/-- The socket accepts a `Connect`, at once or in progress as it may be, of a connection that is
disconnected. -/
def Accepted (s : NoticeRun) : ConnectionCall → Prop
  | .connect created answer =>
    s.conn.state = .disconnected ∧ (s.conn.socketValid = true ∨ created = true)
      ∧ answer.accepted = true
  | _ => False

/-- The socket does not refuse such a `Connect` with an error: it accepts it, or `get_error` says
0 afterwards. -/
def Unrefused (s : NoticeRun) : ConnectionCall → Prop
  | .connect created answer =>
    s.conn.state = .disconnected ∧ (s.conn.socketValid = true ∨ created = true)
      ∧ (answer.accepted = true ∨ answer.err = 0)
  | _ => False

/-- The call closes a connection that is not connected, or meets the end of the stream. -/
def ClosesFalsely (s : NoticeRun) : ConnectionCall → Prop
  | .disconnect => s.conn.state ≠ .connected ∧ s.conn.state ≠ .disconnected
  | .close => s.conn.state ≠ .connected
  | .onReadEvent answer => s.conn.state = .connected ∧ answer = .received []
  | _ => False

end ConnectionCall

/-! ## What a call does -/

namespace NoticeRun

/-- **What a call does**, by the transition that it takes. -/
inductive Step (s : NoticeRun) (a : ConnectionCall) (t : NoticeRun) : Prop
  /-- Nothing that concerns the life of the connection. -/
  | same (hstate : t.conn.state = s.conn.state) (hlife : t.life = s.life)
      (hreply : t.reply ≠ some (.returned none)) (hunrefused : ¬ a.Unrefused s)
      (hcloses : ¬ a.ClosesFalsely s)
  /-- A `Connect` that the socket refuses with `EINPROGRESS`. -/
  | connecting (hs : s.conn.state = .disconnected) (ht : t.conn.state = .connecting)
      (hlife : t.life = s.life) (hunrefused : ¬ a.Unrefused s) (hcloses : ¬ a.ClosesFalsely s)
      (ha : ∃ created err, a = .connect created ⟨false, err⟩ ∧ err = einprogress)
  /-- A `Connect` that the socket accepts, or refuses without an error. -/
  | pretended (hunrefused : a.Unrefused s) (ht : t.conn.state = .disconnected)
      (hreply : t.reply = some (.returned none))
  /-- The connection is complete, or it has failed. -/
  | completed (hs : s.conn.state = .connecting) (ht : t.conn.state = .connected)
      (hlife : t.life = s.life ++ [.connected]) (hreply : t.reply = none)
      (hunrefused : ¬ a.Unrefused s) (hcloses : ¬ a.ClosesFalsely s)
  | failed (hs : s.conn.state = .connecting) (ht : t.conn.state = .error)
      (hlife : t.life = s.life) (hreply : t.reply = none)
      (hunrefused : ¬ a.Unrefused s) (hcloses : ¬ a.ClosesFalsely s)
  /-- A connection that was connected is closed. -/
  | closed (hs : s.conn.state = .connected) (ht : t.conn.state = .disconnected)
      (hlife : t.life = s.life ++ [.disconnected]) (hreply : t.reply = none)
      (hunrefused : ¬ a.Unrefused s) (hcloses : ¬ a.ClosesFalsely s)
  /-- One that was not connected is closed. -/
  | closedFalsely (hs : s.conn.state ≠ .connected) (hunrefused : ¬ a.Unrefused s)
      (hcloses : a.ClosesFalsely s) (hlife : t.life = s.life ++ [.disconnected])
  /-- One is closed and the notification made twice. -/
  | closedTwice (hunrefused : ¬ a.Unrefused s) (hcloses : a.ClosesFalsely s)
      (hlife : t.life = s.life ++ [.disconnected, .disconnected])

variable {s t : NoticeRun}

theorem connect_step (created : Bool) (answer : ConnectAnswer) :
    let r := s.conn.connectInternal created answer
    Step s (.connect created answer) (s.tell r.1 (some r.2)) := by
  dsimp only
  unfold TcpConnection.connectInternal
  by_cases hs : s.conn.state = .disconnected
  · rw [if_neg (not_not.mpr hs)]
    by_cases hsocket : s.conn.socketValid = true ∨ created = true
    · rw [if_neg (by rcases hsocket with h | h <;> simp [h])]
      dsimp only
      obtain ⟨accepted, err⟩ := answer
      cases accepted with
      | false =>
        rw [Bool.not_false, if_pos rfl]
        by_cases hprogress : err = einprogress
        · rw [if_pos hprogress]
          have hunrefused : ¬ (ConnectionCall.connect created ⟨false, err⟩).Unrefused s :=
            fun h => h.2.2.elim Bool.false_ne_true fun hzero => nomatch hzero.symm.trans hprogress
          refine .connecting hs ?_ (List.append_nil _) hunrefused not_false
            ⟨created, err, rfl, hprogress⟩
          show (StateMachine.setConnecting s.conn.state).1 = _
          rw [hs]
          rfl
        · rw [if_neg hprogress]
          by_cases hzero : err = 0
          · -- the error code 0 is success
            exact .pretended ⟨hs, hsocket, Or.inr hzero⟩ hs (by rw [errorCode, if_pos hzero]; rfl)
          · refine .same rfl (List.append_nil _) ?_ ?_ not_false
            · rw [errorCode, if_neg hzero]
              exact nofun
            · exact fun h => h.2.2.elim Bool.false_ne_true hzero
      | true =>
        rw [Bool.not_true, if_neg Bool.false_ne_true]
        refine .pretended ⟨hs, hsocket, Or.inl rfl⟩ ?_ rfl
        -- `SetConnected` refuses, and its result is dropped
        show (StateMachine.setConnected s.conn.state).1 = _
        rw [hs]
        rfl
    · rw [if_pos (by simpa using hsocket)]
      exact .same rfl (List.append_nil _) nofun (fun h => hsocket h.2.1) not_false
  · rw [if_pos hs]
    exact .same rfl (List.append_nil _) nofun (fun h => hs h.1) not_false

theorem onConnectComplete_step (err : ℕ) :
    Step s (.onConnectComplete err) (s.tell (s.conn.onConnectComplete err) none) := by
  unfold TcpConnection.onConnectComplete
  by_cases hs : s.conn.state = .connecting
  · rw [if_pos hs]
    by_cases herr : err = 0
    · rw [if_pos herr]
      refine .completed hs ?_ rfl rfl not_false not_false
      show (StateMachine.setConnected s.conn.state).1 = _
      rw [hs]
      rfl
    · rw [if_neg herr]
      exact .failed hs rfl (List.append_nil _) rfl not_false not_false
  · rw [if_neg hs]
    exact .same rfl (List.append_nil _) nofun not_false not_false

theorem disconnect_step :
    Step s .disconnect (s.tell (s.conn.disconnect setDisconnecting) none) := by
  unfold TcpConnection.disconnect
  by_cases hs : s.conn.state = .disconnected
  · rw [if_pos hs]
    exact .same rfl (List.append_nil _) nofun not_false fun h => h.2 hs
  · rw [if_neg hs]
    by_cases hconnected : s.conn.state = .connected
    · exact .closed hconnected rfl rfl rfl not_false fun h => h.1 hconnected
    · exact .closedFalsely hconnected not_false ⟨hconnected, hs⟩ rfl

theorem close_step : Step s .close (s.tell s.conn.close none) := by
  by_cases hconnected : s.conn.state = .connected
  · exact .closed hconnected rfl rfl rfl not_false fun h => h hconnected
  · exact .closedFalsely hconnected not_false hconnected rfl

/-- `Send` neither changes the state nor notifies. -/
theorem send_step (data : Bytes) (answer : SendAnswer) :
    Step s (.send data answer) (s.tell (s.conn.send data answer).1 none) := by
  have hsend : (s.conn.send data answer).1.conn.state = s.conn.state
      ∧ (s.conn.send data answer).1.notices = [] := by
    unfold TcpConnection.send
    split
    · exact ⟨rfl, rfl⟩
    · cases answer with
      | sent n => exact ⟨rfl, rfl⟩
      | failed err =>
        dsimp only
        split
        · split <;> exact ⟨rfl, rfl⟩
        · exact ⟨rfl, rfl⟩
  refine .same hsend.1 ?_ nofun not_false not_false
  rw [tell, hsend.2]
  exact List.append_nil _

theorem onWriteEvent_step {answers : List SendAnswer} {e : Effect}
    (h : s.conn.onWriteEvent answers = some e) :
    Step s (.onWriteEvent answers) (s.tell e none) := by
  have hsent : ∀ n, (List.replicate n Notice.dataSent).filterMap Notice.life = [] := fun n => by
    rw [List.filterMap_replicate_of_none rfl]
  rw [TcpConnection.onWriteEvent] at h
  by_cases hs : s.conn.state = .connected
  · rw [if_neg fun hn => StateMachine.not_isConnected_iff.mp hn hs] at h
    obtain ⟨d, -, rfl⟩ := Option.map_eq_some_iff.mp h
    have hsame :
        s.life ++ (List.replicate d.sends Notice.dataSent).filterMap Notice.life = s.life := by
      rw [hsent, List.append_nil]
    cases d.stop with
    | none => exact .same rfl hsame nofun not_false not_false
    | some err =>
      dsimp only
      by_cases hagain : err = eagain
      · rw [if_pos hagain]
        exact .same rfl hsame nofun not_false not_false
      · rw [if_neg hagain]
        refine .closed hs rfl ?_ rfl not_false not_false
        rw [tell, List.filterMap_append, List.filterMap_append, hsent]
        rfl
  · rw [if_pos (StateMachine.not_isConnected_iff.mpr hs)] at h
    split at h
    · cases h
      exact .same rfl (List.append_nil _) nofun not_false not_false
    · cases h

theorem onReadEvent_step (hbuffer : s.conn.receiveBuffer.InBounds) (answer : RecvAnswer) :
    Step s (.onReadEvent answer) (s.tell (s.conn.onReadEvent answer) none) := by
  unfold TcpConnection.onReadEvent
  by_cases hs : s.conn.state = .connected
  · rw [if_neg fun hn => StateMachine.not_isConnected_iff.mp hn hs]
    dsimp only
    rw [if_neg hbuffer.size_getReceiveBuffer_ne]
    cases answer with
    | failed err =>
      have hcloses : ¬ (ConnectionCall.onReadEvent (.failed err)).ClosesFalsely s :=
        fun h => nomatch h.2
      dsimp only
      by_cases hagain : err = eagain
      · rw [if_pos hagain]
        exact .same rfl (List.append_nil _) nofun not_false hcloses
      · rw [if_neg hagain]
        exact .closed hs rfl rfl rfl not_false hcloses
    | received data =>
      dsimp only
      by_cases hempty : data.length = 0
      · rw [if_pos hempty]
        rw [List.length_eq_zero_iff] at hempty
        exact .closedTwice not_false ⟨hs, congrArg RecvAnswer.received hempty⟩ rfl
      · rw [if_neg hempty]
        refine .same rfl (List.append_nil _) nofun not_false fun h => hempty ?_
        rw [RecvAnswer.received.inj h.2]
        rfl
  · rw [if_pos (StateMachine.not_isConnected_iff.mpr hs)]
    exact .same rfl (List.append_nil _) nofun not_false fun h => hs h.1

/-- **Every call takes one of the transitions.** -/
theorem perform_step (hbuffer : s.conn.receiveBuffer.InBounds) {a : ConnectionCall}
    (h : s.perform setDisconnecting a = some t) : Step s a t := by
  cases a with
  | connect created answer =>
    cases h
    exact connect_step created answer
  | onConnectComplete err =>
    cases h
    exact onConnectComplete_step err
  | disconnect =>
    cases h
    exact disconnect_step
  | close =>
    cases h
    exact close_step
  | send data answer =>
    cases h
    exact send_step data answer
  | onReadEvent answer =>
    rw [perform] at h
    split at h
    · cases h
      exact onReadEvent_step hbuffer answer
    · cases h
  | onWriteEvent answers =>
    obtain ⟨e, he, rfl⟩ := Option.map_eq_some_iff.mp h
    exact onWriteEvent_step he

/-- A read event moves the buffer on, or clears it. -/
theorem onReadEvent_inBounds (hbuffer : s.conn.receiveBuffer.InBounds) {answer : RecvAnswer}
    (hfits : answer.Fits s.conn.receiveBuffer.getReceiveBuffer.1.size) :
    (s.conn.onReadEvent answer).conn.receiveBuffer.InBounds := by
  have hgrown := hbuffer.inBounds_getReceiveBuffer
  unfold TcpConnection.onReadEvent
  dsimp only
  cases answer with
  | failed err =>
    dsimp only
    split_ifs
    · exact hbuffer
    · exact hgrown
    · exact hgrown
    · exact hgrown.clearAll
  | received data =>
    dsimp only
    split_ifs
    · exact hbuffer
    · exact hgrown
    · exact hgrown.clearAll
    · exact (hbuffer.commitReceive hfits).inBounds_getReceiveBuffer

/-- A write event leaves the buffer alone, or clears it. -/
theorem onWriteEvent_inBounds (hbuffer : s.conn.receiveBuffer.InBounds)
    {answers : List SendAnswer} {e : Effect} (h : s.conn.onWriteEvent answers = some e) :
    e.conn.receiveBuffer.InBounds := by
  rw [TcpConnection.onWriteEvent] at h
  split at h
  · split at h
    · cases h
      exact hbuffer
    · cases h
  · obtain ⟨d, -, rfl⟩ := Option.map_eq_some_iff.mp h
    dsimp only
    cases d.stop with
    | none => exact hbuffer
    | some err =>
      dsimp only
      split_ifs
      · exact hbuffer
      · exact hbuffer.clearAll

/-- Every call leaves the positions of the receive buffer in order. -/
theorem perform_inBounds (hbuffer : s.conn.receiveBuffer.InBounds) {a : ConnectionCall}
    (h : s.perform setDisconnecting a = some t) : t.conn.receiveBuffer.InBounds := by
  cases a with
  | connect created answer =>
    cases h
    show (s.conn.connectInternal created answer).1.conn.receiveBuffer.InBounds
    unfold TcpConnection.connectInternal
    dsimp only
    split_ifs <;> exact hbuffer
  | onConnectComplete err =>
    cases h
    show (s.conn.onConnectComplete err).conn.receiveBuffer.InBounds
    unfold TcpConnection.onConnectComplete
    split_ifs <;> exact hbuffer
  | disconnect =>
    cases h
    show (s.conn.disconnect setDisconnecting).conn.receiveBuffer.InBounds
    unfold TcpConnection.disconnect
    split_ifs
    · exact hbuffer
    · exact hbuffer.clearAll
  | close =>
    cases h
    exact hbuffer.clearAll
  | send data answer =>
    cases h
    show (s.conn.send data answer).1.conn.receiveBuffer.InBounds
    unfold TcpConnection.send
    dsimp only
    cases answer <;> dsimp only <;> split_ifs <;> exact hbuffer
  | onReadEvent answer =>
    rw [perform] at h
    split at h
    · rename_i hfits
      cases h
      exact onReadEvent_inBounds hbuffer hfits
    · cases h
  | onWriteEvent answers =>
    obtain ⟨e, he, rfl⟩ := Option.map_eq_some_iff.mp h
    exact onWriteEvent_inBounds hbuffer he

/-! ## When the reports are true -/

/-- What every call finds and leaves in a run with true reports: being connected is what was
notified last. -/
structure Inv (s : NoticeRun) : Prop where
  inBounds : s.conn.receiveBuffer.InBounds
  alternate : (LifeNotice.disconnected :: s.life).IsChain (· ≠ ·)
  connected_iff : s.conn.state = .connected ↔ s.lastLife = .connected
  reply : s.reply = some (.returned none) → s.conn.state = .connected ∨ s.conn.state = .connecting

theorem Inv.truthful (h : s.Inv) : s.Truthful := by
  refine ⟨h.reply, fun hlast => h.connected_iff.mpr ?_, h.alternate⟩
  rw [lastLife, hlast]
  rfl

theorem inv_start (socketValid : Bool) : (start socketValid).Inv :=
  ⟨ReceiveBuffer.inBounds_initial, List.IsChain.singleton _,
    ⟨nofun, nofun⟩, nofun⟩

/-- The notifications alternate with one more if it differs from the last. -/
theorem alternate_append_iff {life : List LifeNotice} {n : LifeNotice} :
    (LifeNotice.disconnected :: (life ++ [n])).IsChain (· ≠ ·)
      ↔ (LifeNotice.disconnected :: life).IsChain (· ≠ ·)
        ∧ life.getLast?.getD .disconnected ≠ n := by
  rw [← List.cons_append, List.isChain_append, List.getLast?_cons]
  simp

theorem lastLife_append {n : LifeNotice} (h : t.life = s.life ++ [n]) : t.lastLife = n := by
  rw [lastLife, h, List.getLast?_concat]
  rfl

/-- A step without a false notification keeps the reports true. -/
theorem Step.inv {a : ConnectionCall} (h : Step s a t) (hs : s.Inv)
    (ht : t.conn.receiveBuffer.InBounds) (hunrefused : ¬ a.Unrefused s)
    (hcloses : ¬ a.ClosesFalsely s) : t.Inv := by
  obtain ⟨-, halternate, hiff, hreply⟩ := hs
  cases h with
  | same hstate hlife hreply' =>
    exact ⟨ht, hlife ▸ halternate, by rw [hstate, lastLife, hlife]; exact hiff,
      fun h => absurd h hreply'⟩
  | connecting hs ht' hlife =>
    refine ⟨ht, hlife ▸ halternate, ?_, fun _ => Or.inr ht'⟩
    rw [lastLife, hlife]
    rw [hs] at hiff
    rw [ht']
    exact iff_of_false nofun (fun h => nomatch hiff.mpr h)
  | pretended ha => exact absurd ha hunrefused
  | completed hs ht' hlife hreply' =>
    rw [hs] at hiff
    refine ⟨ht, ?_, iff_of_true ht' (lastLife_append hlife), fun _ => Or.inl ht'⟩
    rw [hlife]
    exact alternate_append_iff.mpr ⟨halternate, fun h => nomatch hiff.mpr h⟩
  | failed hs ht' hlife hreply' =>
    refine ⟨ht, hlife ▸ halternate, ?_, fun h => ?_⟩
    · rw [lastLife, hlife]
      rw [hs] at hiff
      rw [ht']
      exact iff_of_false nofun (fun h => nomatch hiff.mpr h)
    · rw [hreply'] at h
      cases h
  | closed hs ht' hlife hreply' =>
    refine ⟨ht, ?_, ?_, fun h => ?_⟩
    · rw [hlife]
      refine alternate_append_iff.mpr ⟨halternate, fun h => ?_⟩
      have hlast : s.lastLife = .disconnected := h
      rw [hiff.mp hs] at hlast
      cases hlast
    · rw [ht', lastLife_append hlife]
      exact iff_of_false nofun nofun
    · rw [hreply'] at h
      cases h
  | closedFalsely _ _ hc => exact absurd hc hcloses
  | closedTwice _ hc => exact absurd hc hcloses

/-- A step with one makes them false. -/
theorem Step.not_truthful {a : ConnectionCall} (h : Step s a t) (hs : s.Inv)
    (hfalse : a.Unrefused s ∨ a.ClosesFalsely s) : ¬ t.Truthful := by
  intro ht
  cases h with
  | same _ _ _ hunrefused hcloses => exact hfalse.elim hunrefused hcloses
  | connecting _ _ _ hunrefused hcloses => exact hfalse.elim hunrefused hcloses
  | pretended _ ht' hreply =>
    rcases ht.reply hreply with hstate | hstate <;> (rw [ht'] at hstate; cases hstate)
  | completed _ _ _ _ hunrefused hcloses => exact hfalse.elim hunrefused hcloses
  | failed _ _ _ _ hunrefused hcloses => exact hfalse.elim hunrefused hcloses
  | closed _ _ _ _ hunrefused hcloses => exact hfalse.elim hunrefused hcloses
  | closedFalsely hs' _ _ hlife =>
    have halternate := ht.alternate
    rw [hlife] at halternate
    have hlast : s.lastLife ≠ .disconnected := (alternate_append_iff.mp halternate).2
    cases hl : s.lastLife with
    | connected => exact hs' (hs.connected_iff.mpr hl)
    | disconnected => exact hlast hl
  | closedTwice _ _ hlife =>
    have halternate := ht.alternate
    rw [hlife, List.append_cons] at halternate
    refine (alternate_append_iff.mp halternate).2 ?_
    rw [List.getLast?_concat]
    rfl

end NoticeRun

/-! ## The socket of the repository -/

/-- A `Connect` is answered as `SocketImpl::connect` answers. When the io handler's `Connect`
fails, there is an error: it is the `errno` of a system call that returned -1. -/
def ConnectionCall.OverSocketImpl : ConnectionCall → Prop
  | .connect _ answer => ∃ valid address result soError,
      result ≠ some 0 ∧ answer = SocketImpl.connect valid address result soError
  | _ => True

/-- The call is a `Connect` that the socket accepts, or `Close`. -/
def ConnectionCall.Reports (s : NoticeRun) (a : ConnectionCall) : Prop :=
  a.Accepted s ∨ a = .close

/-- Over this socket a `Connect` that is not accepted is refused with an error. -/
theorem ConnectionCall.unrefused_iff {a : ConnectionCall} (hsocket : a.OverSocketImpl)
    (s : NoticeRun) : a.Unrefused s ↔ a.Accepted s := by
  cases a with
  | connect created answer =>
    obtain ⟨valid, address, result, soError, hresult, rfl⟩ := hsocket
    refine and_congr_right fun _ => and_congr_right fun _ => ⟨fun h => ?_, Or.inl⟩
    by_contra haccepted
    have herr := SocketImpl.err_connect hresult (eq_false_of_ne_true haccepted)
    exact h.elim haccepted herr.1
  | onConnectComplete err => exact Iff.rfl
  | disconnect => exact Iff.rfl
  | close => exact Iff.rfl
  | send data answer => exact Iff.rfl
  | onReadEvent answer => exact Iff.rfl
  | onWriteEvent answers => exact Iff.rfl

theorem ConnectionCall.closesFalsely_iff {s : NoticeRun} (hs : s.conn.state = .disconnected)
    (a : ConnectionCall) : a.ClosesFalsely s ↔ a = .close := by
  cases a with
  | disconnect => exact iff_of_false (fun h => h.2 hs) nofun
  | close => exact iff_of_true (fun h => nomatch hs ▸ h) rfl
  | onReadEvent answer => exact iff_of_false (fun h => nomatch hs ▸ h.1) nofun
  | connect created answer => exact iff_of_false not_false nofun
  | onConnectComplete err => exact iff_of_false not_false nofun
  | send data answer => exact iff_of_false not_false nofun
  | onWriteEvent answers => exact iff_of_false not_false nofun

/-- Over this socket a connection that reports nothing stays disconnected. -/
theorem NoticeRun.Step.stays_disconnected {s t : NoticeRun} {a : ConnectionCall}
    (h : Step s a t) (hs : s.conn.state = .disconnected) (hsocket : a.OverSocketImpl)
    (hreports : ¬ a.Reports s) : t.conn.state = .disconnected := by
  have hcloses := ConnectionCall.closesFalsely_iff hs a
  cases h with
  | same hstate => rw [hstate, hs]
  | connecting _ _ _ _ _ ha =>
    obtain ⟨created, err, rfl, herr⟩ := ha
    obtain ⟨valid, address, result, soError, hresult, hanswer⟩ := hsocket
    have haccepted : (SocketImpl.connect valid address result soError).accepted = false := by
      rw [← hanswer]
    have hne := (SocketImpl.err_connect hresult haccepted).2
    rw [← hanswer] at hne
    exact absurd herr hne
  | pretended ha =>
    exact absurd (Or.inl ((ConnectionCall.unrefused_iff hsocket s).mp ha)) hreports
  | completed hs' => rw [hs] at hs'; cases hs'
  | failed hs' => rw [hs] at hs'; cases hs'
  | closed hs' => rw [hs] at hs'; cases hs'
  | closedFalsely _ _ hc => exact absurd (Or.inr (hcloses.mp hc)) hreports
  | closedTwice _ hc => exact absurd (Or.inr (hcloses.mp hc)) hreports

/-- **The reports of a connection are true exactly if** the socket refuses with an error every
`Connect` of a connection that is disconnected, nothing but a connection that is connected is
closed, and no read event meets the end of the stream. Over the socket of the repository, which
refuses no `Connect` with `EINPROGRESS` or with 0, they are true exactly if no `Connect` is
accepted at all and `Close` is never called. -/
theorem truthful_iff (setDisconnecting : ConnectionState → ConnectionState) (socketValid : Bool)
    (calls : List ConnectionCall) :
    ((connectionLife setDisconnecting).Always NoticeRun.Truthful (NoticeRun.start socketValid) calls
        ↔ (connectionLife setDisconnecting).Along
            (fun s a => ¬ a.Unrefused s ∧ ¬ a.ClosesFalsely s) (NoticeRun.start socketValid) calls)
      ∧ ((∀ call ∈ calls, call.OverSocketImpl) →
        ((connectionLife setDisconnecting).Always NoticeRun.Truthful
            (NoticeRun.start socketValid) calls
          ↔ (connectionLife setDisconnecting).Along (fun s a => ¬ a.Reports s)
              (NoticeRun.start socketValid) calls)) := by
  have hiff : (connectionLife setDisconnecting).Always NoticeRun.Truthful
        (NoticeRun.start socketValid) calls
      ↔ (connectionLife setDisconnecting).Along
          (fun s a => ¬ a.Unrefused s ∧ ¬ a.ClosesFalsely s) (NoticeRun.start socketValid)
          calls := by
    refine Machine.always_iff_along (I := NoticeRun.Inv) (fun s hs => hs.truthful) ?_ ?_
      (NoticeRun.inv_start socketValid)
    · intro s a r hs hc hr
      have hr' := connectionLife_step.mp hr
      exact (NoticeRun.perform_step hs.inBounds hr').inv hs
        (NoticeRun.perform_inBounds hs.inBounds hr') hc.1 hc.2
    · intro s a r hs hc hr
      have hr' := connectionLife_step.mp hr
      exact (NoticeRun.perform_step hs.inBounds hr').not_truthful hs (by tauto)
  refine ⟨hiff, fun hsocket => hiff.trans ?_⟩
  have hover := (connectionLife setDisconnecting).along_of_forall (NoticeRun.start socketValid)
    (C := ConnectionCall.OverSocketImpl) hsocket
  -- in both kinds of run the connection stays disconnected
  let I := fun s : NoticeRun => s.conn.receiveBuffer.InBounds ∧ s.conn.state = .disconnected
  have hI : I (NoticeRun.start socketValid) := ⟨ReceiveBuffer.inBounds_initial, rfl⟩
  have hstep : ∀ s a (r : NoticeRun × Unit), I s → a.OverSocketImpl → ¬ a.Reports s →
      (connectionLife setDisconnecting).step s a = some r → I r.1 := by
    intro s a r hs hsocket hreports hr
    have hr' := connectionLife_step.mp hr
    exact ⟨NoticeRun.perform_inBounds hs.1 hr',
      (NoticeRun.perform_step hs.1 hr').stays_disconnected hs.2 hsocket hreports⟩
  have hcond : ∀ s (a : ConnectionCall), I s → a.OverSocketImpl →
      (¬ a.Unrefused s ∧ ¬ a.ClosesFalsely s ↔ ¬ a.Reports s) := by
    intro s a hs hsocket
    rw [ConnectionCall.closesFalsely_iff hs.2, ConnectionCall.unrefused_iff hsocket,
      ConnectionCall.Reports, not_or]
  constructor
  · intro h
    exact Machine.along_of_along (I := I)
      (fun s a r hs hc hr => hstep s a r hs hc.2 ((hcond s a hs hc.2).mp hc.1) hr)
      (fun s a r hs hc _ => (hcond s a hs hc.2).mp hc.1) hI (h.and hover)
  · intro h
    exact Machine.along_of_along (I := I)
      (fun s a r hs hc hr => hstep s a r hs hc.2 hc.1 hr)
      (fun s a r hs hc _ => (hcond s a hs hc.2).mpr hc.1) hI (h.and hover)

/-- A failing `Connect`, a `Send` and a `Disconnect` of a connection that never was report
nothing false. -/
theorem truthful_refused :
    (connectionLife id).Always NoticeRun.Truthful (NoticeRun.start true)
        [.connect true (SocketImpl.connect true true (some 111) 0), .send [97] (.failed ebadf),
          .disconnect]
      ↔ (connectionLife id).Along (fun s a => ¬ a.Reports s) (NoticeRun.start true)
        [.connect true (SocketImpl.connect true true (some 111) 0), .send [97] (.failed ebadf),
          .disconnect] := by
  refine (truthful_iff id true _).2 fun call hmem => ?_
  rcases List.mem_cons.mp hmem with rfl | hmem
  · exact ⟨true, true, some 111, 0, by decide, rfl⟩
  · rcases List.mem_cons.mp hmem with rfl | hmem
    · trivial
    · rw [List.mem_singleton.mp hmem]
      trivial

/-- The socket accepts a `Connect` at once: it is notified and reported as a success, and the
connection is not connected. -/
theorem not_truthful :
    ¬ (connectionLife id).Always NoticeRun.Truthful (NoticeRun.start true)
      [.connect true (SocketImpl.connect true true none 0)] := by
  intro h
  exact absurd ((h.2 _ rfl).reply rfl) (by decide)
