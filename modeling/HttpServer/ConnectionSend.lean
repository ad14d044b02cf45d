import HttpServer.Connection
import HttpServer.Machine

/-!
# What a connection has sent

A connection over a socket object that is connected takes calls of `Send`, `Flush` and
`onWriteEvent`, the socket answering as it likes. Two accounts are kept: what the socket
took, in order, and what the calls of `Send` said that they sent. The first, followed by
what waits in the queue, ought to be the second.

`Flush` and `onWriteEvent` move bytes from the queue to the socket and keep the accounts
equal; `Send` with a socket that blocks appends to the queue and does so as well. But `Send`
offers its data to the socket without a look at the queue: what the socket takes while
something waits goes out before it. And an error in `onWriteEvent` closes the connection,
and what waits is thrown away. `accounted_iff` says that nothing else goes wrong.
-/

/-- The calls, with what the socket answers. -/
inductive SendAction
  | send (data : Bytes) (answer : SendAnswer)
  | flush (answers : List SendAnswer)
  | onWriteEvent (answers : List SendAnswer)
  deriving DecidableEq, Repr

/-- A connection with the two accounts: what the socket has taken, and what the calls of
`Send` have reported, each the first bytes of its data. -/
structure SendLedger where
  conn : TcpConnection
  accepted : Bytes := []
  reported : Bytes := []

namespace SendLedger

variable (s : SendLedger)

/-- The bytes that a call of `Send` reports as sent. -/
def report (data : Bytes) : Except CallError ℕ → Bytes
  | .ok n => data.take n
  | .error _ => []

/-- The accounts after a call. -/
def book (e : Effect) (reported : Bytes) : SendLedger :=
  ⟨e.conn, s.accepted ++ e.wire, s.reported ++ reported⟩

/-- A call that does nothing leaves the accounts. -/
theorem book_nothing : s.book { conn := s.conn } [] = s := by
  show SendLedger.mk s.conn (s.accepted ++ []) (s.reported ++ []) = s
  rw [List.append_nil, List.append_nil]

/-- One call. -/
def perform : SendAction → Option SendLedger
  | .send data answer =>
    if answer.Fits data.length then
      let r := s.conn.send data answer
      some (s.book r.1 (report data r.2))
    else none
  | .flush answers => (s.conn.flush answers).map fun r => s.book r.1 []
  | .onWriteEvent answers => (s.conn.onWriteEvent answers).map fun e => s.book e []

/-- **The two accounts agree**: what the socket took and what waits are what `Send` reported. -/
def Accounted : Prop := s.accepted ++ s.conn.sendQueue.pending = s.reported

instance : Decidable s.Accounted := inferInstanceAs (Decidable (_ = _))

/-- A connection that is connected and has nothing to send. -/
def start (socketValid : Bool) (receiveBuffer : ReceiveBuffer) : SendLedger where
  conn := { socketValid, state := .connected, receiveBuffer }

end SendLedger

/-- The machine of the calls. -/
def connectionSender : Machine SendLedger SendAction Unit where
  step s a := (s.perform a).map fun t => (t, ())

theorem connectionSender_step {s : SendLedger} {a : SendAction} {r : SendLedger × Unit} :
    connectionSender.step s a = some r ↔ s.perform a = some r.1 := by
  show (s.perform a).map _ = some r ↔ _
  rw [Option.map_eq_some_iff]
  exact ⟨fun ⟨t, ht, he⟩ => he ▸ ht, fun h => ⟨r.1, h, rfl⟩⟩

/-! ## What a call does -/

/-- The bytes that the socket takes from the data of a call of `Send`. -/
def SendAction.taken : SendAction → Bytes
  | .send data (.sent n) => data.take n
  | _ => []

/-- The socket answers a write event with an error that is not `EAGAIN`. -/
def SendAction.Fatal : SendAction → Prop
  | .onWriteEvent answers => ∃ err, .failed err ∈ answers ∧ err ≠ eagain
  | _ => False

namespace SendLedger

/-- **What a call does**, by what becomes of the queue. -/
inductive Step (s : SendLedger) (a : SendAction) (t : SendLedger) : Prop
  /-- The connection is not connected and the call does nothing. -/
  | refused (hs : s.conn.state ≠ .connected) (ht : t = s)
  /-- The socket takes bytes of the data of a `Send`, whatever waits. -/
  | taken (hs : s.conn.state = .connected) (hopen : ¬ a.Fatal) (hconn : t.conn = s.conn)
      (haccepted : t.accepted = s.accepted ++ a.taken)
      (hreported : t.reported = s.reported ++ a.taken)
  /-- Bytes go from the queue to the socket, or are appended to the queue. -/
  | moved (hs : s.conn.state = .connected) (hopen : ¬ a.Fatal) (htaken : a.taken = [])
      (ht : t.conn.state = .connected) (data : Bytes)
      (haccepted : t.accepted ++ t.conn.sendQueue.pending
        = s.accepted ++ s.conn.sendQueue.pending ++ data)
      (hreported : t.reported = s.reported ++ data)
  /-- The connection is closed, and what waits is thrown away. -/
  | lost (hs : s.conn.state = .connected) (hfatal : a.Fatal) (htaken : a.taken = [])
      (ht : t.conn.state = .disconnected) (hnil : t.conn.sendQueue.pending = [])
      (rest : Bytes) (hrest : rest ≠ [])
      (haccepted : t.accepted ++ rest = s.accepted ++ s.conn.sendQueue.pending)
      (hreported : t.reported = s.reported)

variable {s t : SendLedger}

theorem send_step (hwf : s.conn.sendQueue.WellFormed) (data : Bytes) (answer : SendAnswer) :
    let r := s.conn.send data answer
    (s.book r.1 (report data r.2)).conn.sendQueue.WellFormed
      ∧ Step s (.send data answer) (s.book r.1 (report data r.2)) := by
  dsimp only
  unfold TcpConnection.send
  by_cases hs : s.conn.state = .connected
  · rw [if_neg fun hn => StateMachine.not_isConnected_iff.mp hn hs]
    cases answer with
    | sent n => exact ⟨hwf, .taken hs not_false rfl rfl rfl⟩
    | failed err =>
      dsimp only
      by_cases hagain : err = eagain
      · obtain ⟨hwf', hpending, hok⟩ := hwf.enqueueSend data
        rw [if_pos hagain, hok, Bool.not_true, if_neg Bool.false_ne_true]
        refine ⟨hwf', .moved hs not_false rfl hs data ?_ ?_⟩
        · show s.accepted ++ [] ++ (s.conn.sendQueue.enqueueSend data).1.pending = _
          rw [hpending, List.append_nil, List.append_assoc]
        · show s.reported ++ data.take data.length = _
          rw [List.take_length]
      · rw [if_neg hagain]
        refine ⟨hwf, .moved hs not_false rfl hs [] ?_ rfl⟩
        show s.accepted ++ [] ++ s.conn.sendQueue.pending = _
        rw [List.append_nil, List.append_nil]
  · rw [if_pos (StateMachine.not_isConnected_iff.mpr hs)]
    exact ⟨hwf, .refused hs s.book_nothing⟩

theorem flush_step (hwf : s.conn.sendQueue.WellFormed) {answers : List SendAnswer}
    (h : s.perform (.flush answers) = some t) :
    t.conn.sendQueue.WellFormed ∧ Step s (.flush answers) t := by
  obtain ⟨r, hr, rfl⟩ := Option.map_eq_some_iff.mp h
  rw [TcpConnection.flush] at hr
  by_cases hs : s.conn.state = .connected
  · rw [if_neg fun hn => StateMachine.not_isConnected_iff.mp hn hs] at hr
    obtain ⟨d, hd, rfl⟩ := Option.map_eq_some_iff.mp hr
    obtain ⟨hwf', hwire, -, -⟩ := SendBufferQueue.drain_spec hwf hd
    refine ⟨hwf', .moved hs not_false rfl hs [] ?_ rfl⟩
    show s.accepted ++ d.wire ++ d.queue.pending = _
    rw [List.append_assoc, hwire, List.append_nil]
  · rw [if_pos (StateMachine.not_isConnected_iff.mpr hs)] at hr
    split at hr
    · cases hr
      exact ⟨hwf, .refused hs s.book_nothing⟩
    · cases hr

theorem onWriteEvent_step (hwf : s.conn.sendQueue.WellFormed) {answers : List SendAnswer}
    (h : s.perform (.onWriteEvent answers) = some t) :
    t.conn.sendQueue.WellFormed ∧ Step s (.onWriteEvent answers) t := by
  obtain ⟨e, he, rfl⟩ := Option.map_eq_some_iff.mp h
  rw [TcpConnection.onWriteEvent] at he
  by_cases hs : s.conn.state = .connected
  · rw [if_neg fun hn => StateMachine.not_isConnected_iff.mp hn hs] at he
    obtain ⟨d, hd, rfl⟩ := Option.map_eq_some_iff.mp he
    obtain ⟨hwf', hwire, hstop, hpending⟩ := SendBufferQueue.drain_spec hwf hd
    have hmoved : s.accepted ++ d.wire ++ d.queue.pending
        = s.accepted ++ s.conn.sendQueue.pending ++ [] := by
      rw [List.append_assoc, hwire, List.append_nil]
    cases hd' : d.stop with
    | none =>
      refine ⟨hwf', .moved hs ?_ rfl hs [] hmoved rfl⟩
      rintro ⟨err, hmem, -⟩
      rw [(hstop err).mpr hmem] at hd'
      cases hd'
    | some err =>
      by_cases hagain : err = eagain
      · dsimp only
        rw [if_pos hagain]
        refine ⟨hwf', .moved hs ?_ rfl hs [] hmoved rfl⟩
        rintro ⟨err', hmem, hne⟩
        rw [(hstop err').mpr hmem, Option.some.injEq] at hd'
        exact hne (hd'.trans hagain)
      · dsimp only
        rw [if_neg hagain]
        refine ⟨SendBufferQueue.wellFormed_empty, .lost hs ⟨err, (hstop err).mp hd', hagain⟩ rfl rfl
          rfl d.queue.pending (fun hnil => ?_) ?_ (List.append_nil _)⟩
        · rw [hpending.mp hnil] at hd'
          cases hd'
        · rw [← List.append_nil (s.accepted ++ s.conn.sendQueue.pending), ← hmoved]
          rfl
  · rw [if_pos (StateMachine.not_isConnected_iff.mpr hs)] at he
    split at he
    · cases he
      exact ⟨hwf, .refused hs s.book_nothing⟩
    · cases he

/-- **Every call takes one of the steps**, and leaves a queue as the class keeps it. -/
theorem perform_step (hwf : s.conn.sendQueue.WellFormed) {a : SendAction}
    (h : s.perform a = some t) : t.conn.sendQueue.WellFormed ∧ Step s a t := by
  cases a with
  | send data answer =>
    rw [perform] at h
    split at h
    · cases h
      exact send_step hwf data answer
    · cases h
  | flush answers => exact flush_step hwf h
  | onWriteEvent answers => exact onWriteEvent_step hwf h

/-! ## When the accounts agree -/

/-- What the socket takes from a `Send` is in its turn: it is the same to put it before or
behind what waits, as when nothing waits. -/
def InTurn (s : SendLedger) (a : SendAction) : Prop :=
  s.conn.state = .connected →
    a.taken ++ s.conn.sendQueue.pending = s.conn.sendQueue.pending ++ a.taken

/-- A write event does not close the connection: each error of the socket is `EAGAIN`. -/
def StaysOpen (s : SendLedger) (a : SendAction) : Prop :=
  s.conn.state = .connected → ¬ a.Fatal

/-- The accounts agree as long as the connection is connected. -/
def AccountedWhileConnected (s : SendLedger) : Prop :=
  s.conn.state = .connected → s.Accounted

/-- A step in turn that does not close the connection keeps the accounts equal. -/
theorem Step.accounted {a : SendAction} (h : Step s a t) (hs : s.Accounted) (hturn : s.InTurn a)
    (hopen : s.StaysOpen a) : t.Accounted := by
  unfold Accounted at hs ⊢
  cases h with
  | refused _ ht => rw [ht, hs]
  | taken hconn _ ht haccepted hreported =>
    rw [ht, haccepted, hreported, List.append_assoc, hturn hconn, ← List.append_assoc, hs]
  | moved _ _ _ _ data haccepted hreported => rw [haccepted, hreported, hs]
  | lost hconn hfatal => exact absurd hfatal (hopen hconn)

/-- A connection that is connected after a call was so before, and the call has not closed it. -/
theorem Step.of_connected {a : SendAction} (h : Step s a t) (ht : t.conn.state = .connected) :
    s.conn.state = .connected ∧ s.StaysOpen a := by
  cases h with
  | refused hs he => exact absurd (he ▸ ht) hs
  | taken hs hopen => exact ⟨hs, fun _ => hopen⟩
  | moved hs hopen => exact ⟨hs, fun _ => hopen⟩
  | lost _ _ _ ht' =>
    rw [ht'] at ht
    cases ht

/-- One out of turn makes them differ. -/
theorem Step.not_accounted_of_not_inTurn {a : SendAction} (h : Step s a t) (hs : s.Accounted)
    (hturn : ¬ s.InTurn a) : t.conn.state = .connected ∧ ¬ t.Accounted := by
  unfold InTurn at hturn
  obtain ⟨hconnected, hne⟩ := Classical.not_imp.mp hturn
  cases h with
  | refused hs' _ => exact absurd hconnected hs'
  | taken _ _ ht haccepted hreported =>
    refine ⟨ht ▸ hconnected, fun ht' => hne ?_⟩
    unfold Accounted at hs ht'
    rw [ht, haccepted, hreported, ← hs, List.append_assoc, List.append_assoc] at ht'
    exact List.append_cancel_left ht'
  | moved _ _ htaken => exact absurd (by rw [htaken, List.nil_append, List.append_nil]) hne
  | lost _ _ htaken => exact absurd (by rw [htaken, List.nil_append, List.append_nil]) hne

/-- One that closes the connection does so too. -/
theorem Step.not_accounted_of_not_staysOpen {a : SendAction} (h : Step s a t) (hs : s.Accounted)
    (hopen : ¬ s.StaysOpen a) : ¬ t.Accounted := by
  unfold StaysOpen at hopen
  obtain ⟨hconnected, hfatal⟩ := Classical.not_imp.mp hopen
  rw [Classical.not_not] at hfatal
  cases h with
  | refused hs' _ => exact absurd hconnected hs'
  | taken _ hopen' => exact absurd hfatal hopen'
  | moved _ hopen' => exact absurd hfatal hopen'
  | lost _ _ _ _ hnil rest hrest haccepted hreported =>
    intro ht
    unfold Accounted at hs ht
    rw [hnil, List.append_nil, hreported, ← hs, ← haccepted] at ht
    exact hrest (List.self_eq_append_right.mp ht)

/-- What every call finds and leaves. -/
structure Inv (s : SendLedger) : Prop where
  wellFormed : s.conn.sendQueue.WellFormed
  accounted : s.Accounted

end SendLedger

open SendLedger in
/-- **`Send` accounts for every byte, and keeps the order, exactly if** no call of `Send` hands
bytes to the socket while others wait, and no write event closes the connection. As long as
the connection is connected the first condition alone decides. -/
theorem accounted_iff (socketValid : Bool) (receiveBuffer : ReceiveBuffer)
    (calls : List SendAction) :
    (connectionSender.Always Accounted (start socketValid receiveBuffer) calls
        ↔ connectionSender.Along (fun s a => s.InTurn a ∧ s.StaysOpen a)
            (start socketValid receiveBuffer) calls)
      ∧ (connectionSender.Always AccountedWhileConnected (start socketValid receiveBuffer) calls
        ↔ connectionSender.Along InTurn (start socketValid receiveBuffer) calls) := by
  constructor
  · refine Machine.always_iff_along (I := Inv) (fun s hs => hs.accounted) ?_ ?_
      ⟨SendBufferQueue.wellFormed_empty, rfl⟩
    · intro s a r hs hc hr
      obtain ⟨hwf, hstep⟩ := perform_step hs.wellFormed (connectionSender_step.mp hr)
      exact ⟨hwf, hstep.accounted hs.accounted hc.1 hc.2⟩
    · intro s a r hs hc hr
      obtain ⟨-, hstep⟩ := perform_step hs.wellFormed (connectionSender_step.mp hr)
      by_cases hturn : s.InTurn a
      · exact hstep.not_accounted_of_not_staysOpen hs.accounted fun hopen => hc ⟨hturn, hopen⟩
      · exact (hstep.not_accounted_of_not_inTurn hs.accounted hturn).2
  · refine Machine.always_iff_along
      (I := fun s : SendLedger => s.conn.sendQueue.WellFormed ∧ s.AccountedWhileConnected)
      (fun s hs => hs.2) ?_ ?_ ⟨SendBufferQueue.wellFormed_empty, fun _ => rfl⟩
    · intro s a r hs hc hr
      obtain ⟨hwf, hstep⟩ := perform_step hs.1 (connectionSender_step.mp hr)
      refine ⟨hwf, fun ht => ?_⟩
      obtain ⟨hs', hopen⟩ := hstep.of_connected ht
      exact hstep.accounted (hs.2 hs') hc hopen
    · intro s a r hs hc hr hP
      obtain ⟨-, hstep⟩ := perform_step hs.1 (connectionSender_step.mp hr)
      obtain ⟨hconnected, -⟩ := Classical.not_imp.mp hc
      obtain ⟨ht, hne⟩ := hstep.not_accounted_of_not_inTurn (hs.2 hconnected) hc
      exact hne (hP ht)

/-- The socket blocks for the first `Send` and takes the data of the second: what is reported
as sent first goes out last. -/
theorem not_accounted :
    ¬ connectionSender.Always SendLedger.Accounted (SendLedger.start true {})
      [.send [97] (.failed eagain), .send [98] (.sent 1), .flush [.sent 1]] := by
  intro h
  exact absurd (h.2 _ rfl).2 (by
    intro h2
    exact absurd (h2 _ rfl).1 (by decide))
