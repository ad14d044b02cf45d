import HttpServer.ConnectionLife
import Mathlib.Data.List.Nodup
import Mathlib.Data.List.Perm.Subperm

/-!
# What is announced about a connection

The end of a connection is announced from three places: `Disconnect` and `Close`, each once
it has set the state, and the reader, behind its loop. `Disconnect` acts only if the state is
`CONNECTED`, and `Close` only if there is a descriptor. The reader asks for nothing, and leaves
the state as it is.

Two things follow. For each connection that is established there is one reader, and each reader
announces an end when it leaves, so that one announcement of `Disconnect` is one too many: it
may be that of the same connection which is doubled, or, where a reader outlives its own, that
of a later one (`announced_once_iff`). And where the reader is the first to notice, the
connection still counts as connected after its end has been announced
(`announced_agrees_iff`).
-/

/-! ## What a step announces -/

/-- The state while a thread is in the middle of a call. -/
def Stage.state : Stage → ConnectionState
  | .disconnectTrigger => .disconnecting
  | .disconnectEnd => .disconnecting
  | .closeTrigger => .closing
  | .connectInit => .connected
  | .connectTrigger => .connected

/-- The steps in which the threads go on with what they have begun: the one in the middle of a
call, and the readers. -/
def LifeStep.GoesOn : LifeStep → Prop
  | .proceed => True
  | .readerTest _ => True
  | .readerRecv _ _ => True
  | .readerTrigger _ => True
  | _ => False

namespace LifeRun

variable (s : LifeRun)

/-- How many readers have finished. -/
def finished : ℕ := s.readers.count .finished

/-- The reader that `Connect` is still to start. -/
def owed : ℕ := if s.holder = some .connectInit then 1 else 0

/-- The announcement that `Disconnect` is still to make. -/
def due : ℕ := if s.holder = some .disconnectTrigger then 1 else 0

/-- The connections in the time of which `DISCONNECTED` has been triggered. -/
def announced : List ℕ := (s.life.events.filter fun e => e.2 = .disconnected).map Prod.fst

/-- How often it has been triggered in the time of a connection. -/
def announcements (k : ℕ) : ℕ := s.announced.count k

/-- `DISCONNECTED` or `CLOSED` has been triggered for the connection that was established
last. -/
def EndAnnounced : Prop :=
  (s.life.established, .disconnected) ∈ s.life.events
    ∨ (s.life.established, .closed) ∈ s.life.events

end LifeRun

/-- **What a step can do to what has been announced**: nothing, which is all that most steps
do, or begin with another connection, or announce the end of this one. -/
inductive LifeChange (s : LifeRun) : LifeStep → LifeRun → Prop
  | quiet (a : LifeStep) (t : LifeRun) (told : List (ℕ × ConnectionEvent))
    (hproceed : a = .proceed → s.holder ≠ some .disconnectTrigger)
    (hreader : ∀ i, a ≠ .readerTrigger i)
    (htold : ∀ e ∈ told, e = (s.life.established, .connected))
    (hevents : t.life.events = s.life.events ++ told)
    (hestablished : t.life.established = s.life.established)
    (hreaders : t.readers.length + t.owed = s.readers.length + s.owed)
    (hfinished : t.finished = s.finished)
    (hstate : t.life.conn.state = .connected → s.life.conn.state = .connected)
    (hfree : t.life.conn.state = .disconnected →
      s.life.conn.state = .disconnected ∨ s.holder = some .disconnectEnd)
    (hdue : t.holder = some .disconnectTrigger →
      s.holder = some .disconnectTrigger ∨ a = .disconnect ∧ s.life.conn.state = .connected)
    (hkeep : s.holder = some .disconnectTrigger → t.holder = some .disconnectTrigger)
    (hend : t.holder = some .disconnectEnd → s.holder = some .disconnectEnd) :
    LifeChange s a t
  | connects (socket : Except SocketError ℕ) (result : Option SocketError) (t : LifeRun)
    (hs : s.life.conn.state = .disconnected) (ht : t.life.conn.state = .connected)
    (hsholder : s.holder = none) (htholder : t.holder = some .connectInit)
    (hevents : t.life.events = s.life.events)
    (hestablished : t.life.established = s.life.established + 1)
    (hreaders : t.readers = s.readers) : LifeChange s (.connect socket result) t
  | disconnectTold (hholder : s.holder = some .disconnectTrigger) :
    LifeChange s .proceed (s.proceed .disconnectTrigger)
  | closeTold (hholder : s.holder = some .closeTrigger) :
    LifeChange s .proceed (s.proceed .closeTrigger)
  | readerTold (i : ℕ) (hi : s.readers[i]? = some .leaving) :
    LifeChange s (.readerTrigger i) (s.readerTrigger i)

/-- A reader that goes on has not finished. -/
theorem count_set_going {readers : List LoopPoint} {i : ℕ} {p q : LoopPoint}
    (hi : readers[i]? = some q) (hq : q ≠ .finished) (hp : p ≠ .finished) :
    (readers.set i p).count .finished = readers.count .finished := by
  obtain ⟨hlt, hget⟩ := List.getElem?_eq_some_iff.mp hi
  rw [List.count_set hlt, hget, if_neg (by simpa using hq), if_neg (by simpa using hp)]
  rfl

/-- A reader that leaves is one more. -/
theorem count_set_leaving {readers : List LoopPoint} {i : ℕ} (hi : readers[i]? = some .leaving) :
    (readers.set i .finished).count .finished = readers.count .finished + 1 := by
  obtain ⟨hlt, hget⟩ := List.getElem?_eq_some_iff.mp hi
  rw [List.count_set hlt, hget, if_neg (by simp)]
  simp

theorem RecvResult.next_ne_finished (r : RecvResult) : r.next ≠ .finished := by
  cases r <;> simp [next]

namespace LifeRun

variable {s : LifeRun}

/-- A step with nothing to it. -/
theorem quiet_refl {a : LifeStep} (hproceed : a ≠ .proceed)
    (hreader : ∀ i, a ≠ .readerTrigger i) : LifeChange s a s :=
  .quiet a s [] (fun h => absurd h hproceed) hreader (fun _ he => nomatch he)
    (List.append_nil _).symm rfl rfl rfl id Or.inl Or.inl id id

/-- A call that announces nothing and does not make a connection. -/
theorem quiet_call {a : LifeStep} (hproceed : a ≠ .proceed) (hreader : ∀ i, a ≠ .readerTrigger i)
    {conn : TCPConnection} {descriptors : List Descriptor} {holder : Option Stage}
    (howed : holder ≠ some .connectInit ∧ s.holder = none ∨ holder = s.holder)
    (hstate : conn.state = .connected → s.life.conn.state = .connected)
    (hfree : conn.state = .disconnected → s.life.conn.state = .disconnected)
    (hdue : holder = some .disconnectTrigger →
      s.holder = some .disconnectTrigger ∨ a = .disconnect ∧ s.life.conn.state = .connected)
    (hend : holder = some .disconnectEnd → s.holder = some .disconnectEnd) :
    LifeChange s a { s with life := { s.life with conn, descriptors }, holder } := by
  refine .quiet a _ [] (fun h => absurd h hproceed) hreader (fun _ he => nomatch he)
    (List.append_nil _).symm rfl ?_ rfl hstate (fun h => Or.inl (hfree h)) hdue ?_ hend
  · unfold owed
    rcases howed with ⟨hne, hnone⟩ | heq
    · rw [if_neg hne, if_neg (by rw [hnone]; exact nofun)]
    · rw [heq]
  · rcases howed with ⟨-, hnone⟩ | heq
    · rw [hnone]
      exact nofun
    · exact fun h => heq.trans h

/-- A reader that goes on. -/
theorem quiet_reader {a : LifeStep} (hproceed : a ≠ .proceed)
    (hreader : ∀ i, a ≠ .readerTrigger i) {i : ℕ} {p q : LoopPoint}
    (hi : s.readers[i]? = some q) (hq : q ≠ .finished) (hp : p ≠ .finished) :
    LifeChange s a { s with readers := s.readers.set i p } :=
  .quiet a _ [] (fun h => absurd h hproceed) hreader (fun _ he => nomatch he)
    (List.append_nil _).symm rfl (congrArg (· + _) List.length_set) (count_set_going hi hq hp)
    id Or.inl Or.inl id id

/-- **Every step is one of these changes.** -/
theorem perform_change {a : LifeStep} (henabled : s.Enabled a) :
    LifeChange s a (s.perform a).1 := by
  cases a with
  | connect socket result =>
    show LifeChange s _ (s.connect socket result).1
    unfold connect
    split
    · exact quiet_refl (by simp) (by simp)
    · rename_i hs
      have hfailed : ∀ conn descriptors, conn.state = .error → LifeChange s
          (.connect socket result) { s with life := { s.life with conn, descriptors } } := by
        intro conn descriptors herror
        refine quiet_call (by simp) (by simp) (Or.inr rfl) (fun h => ?_) (fun h => ?_) Or.inl id
        · rw [h] at herror
          cases herror
        · rw [h] at herror
          cases herror
      cases socket with
      | error e => exact hfailed _ s.life.descriptors rfl
      | ok fd =>
        cases result with
        | some e => exact hfailed _ _ rfl
        | none => exact .connects _ _ _ (not_not.mp hs) rfl henabled.1 rfl rfl rfl rfl
  | disconnect =>
    show LifeChange s _ s.disconnect
    unfold disconnect
    split
    · exact quiet_refl (by simp) (by simp)
    · rename_i hstate
      exact quiet_call (by simp) (by simp) (Or.inl ⟨by simp, henabled⟩) (fun h => nomatch h)
        (fun h => nomatch h) (fun _ => .inr ⟨rfl, not_not.mp hstate⟩) fun h => nomatch h
  | close =>
    show LifeChange s _ s.close
    unfold close
    split
    · rename_i hfd
      refine quiet_call (by simp) (by simp) (Or.inl ⟨by simp, henabled⟩) (fun hclosing => ?_)
        (fun hclosing => ?_) (fun h => nomatch h) fun h => nomatch h
      · rw [TCPConnection.close_eq hfd] at hclosing
        cases hclosing
      · rw [TCPConnection.close_eq hfd] at hclosing
        cases hclosing
    · exact quiet_refl (by simp) (by simp)
  | send data alloc io =>
    refine quiet_call (by simp) (by simp) (Or.inr rfl) (fun h => ?_) (fun h => ?_) Or.inl id
    · rw [← TCPConnection.state_send s.life.conn data alloc io]
      exact h
    · rw [← TCPConnection.state_send s.life.conn data alloc io]
      exact h
  | proceed =>
    show LifeChange s _ (s.holder.elim s s.proceed)
    cases hholder : s.holder with
    | none => exact absurd hholder henabled
    | some stage =>
      have howed : s.owed = if stage = .connectInit then 1 else 0 := by simp [owed, hholder]
      cases stage with
      | disconnectTrigger => exact .disconnectTold hholder
      | closeTrigger => exact .closeTold hholder
      | disconnectEnd =>
        exact .quiet _ _ [] (fun _ => by simp [hholder]) (by simp) (by simp)
          (List.append_nil _).symm rfl (by rw [howed]; rfl) rfl (fun h => nomatch h)
          (fun _ => .inr hholder) (fun h => nomatch h) (by simp [hholder]) fun h => nomatch h
      | connectInit =>
        refine .quiet _ _ [] (fun _ => by simp [hholder]) (by simp) (by simp)
          (List.append_nil _).symm rfl ?_ ?_ id Or.inl (fun h => nomatch h) (by simp [hholder])
          fun h => nomatch h
        · rw [howed]
          exact List.length_append
        · show (s.readers ++ [LoopPoint.test]).count .finished = s.finished
          rw [List.count_append]
          rfl
      | connectTrigger =>
        exact .quiet _ _ [(s.life.established, .connected)] (fun _ => by simp [hholder])
          (by simp) (by simp) rfl rfl (by rw [howed]; rfl) rfl id Or.inl (fun h => nomatch h)
          (by simp [hholder]) fun h => nomatch h
  | readerTest i =>
    refine quiet_reader (by simp) (by simp) henabled (by simp) ?_
    split <;> simp
  | readerRecv i result =>
    exact quiet_reader (by simp) (by simp) henabled (by simp) result.next_ne_finished
  | readerTrigger i => exact .readerTold i henabled

/-- While a thread is in the middle of a call, the state is the one it has set. -/
def StageState (s : LifeRun) : Prop := ∀ stage ∈ s.holder, s.life.conn.state = stage.state

theorem StageState.perform (h : s.StageState) {a : LifeStep} (henabled : s.Enabled a) :
    (s.perform a).1.StageState := by
  cases a with
  | connect socket result =>
    have hfree : s.holder = none := henabled.1
    show (s.connect socket result).1.StageState
    unfold connect
    split
    · exact h
    · have hfailed : ∀ life, StageState { s with life } := by
        intro life stage hstage
        rw [show s.holder = some stage from hstage] at hfree
        cases hfree
      cases socket with
      | error e => exact hfailed _
      | ok fd =>
        cases result with
        | some e => exact hfailed _
        | none =>
          intro stage hstage
          cases hstage
          rfl
  | disconnect =>
    show s.disconnect.StageState
    unfold disconnect
    split
    · exact h
    · intro stage hstage
      cases hstage
      rfl
  | close =>
    show s.close.StageState
    unfold close
    split
    · rename_i hfd
      intro stage hstage
      cases hstage
      show s.life.conn.close.state = .closing
      rw [TCPConnection.close_eq hfd]
    · exact h
  | send data alloc io =>
    intro stage hstage
    show (s.life.conn.send data alloc io).1.1.state = stage.state
    rw [TCPConnection.state_send]
    exact h stage hstage
  | proceed =>
    show (s.holder.elim s s.proceed).StageState
    cases hholder : s.holder with
    | none => exact absurd hholder henabled
    | some stage =>
      have hstate := h stage hholder
      cases stage with
      | disconnectTrigger =>
        intro next hnext
        cases hnext
        exact hstate
      | connectInit =>
        intro next hnext
        cases hnext
        exact hstate
      | disconnectEnd => exact fun next hnext => nomatch hnext
      | closeTrigger => exact fun next hnext => nomatch hnext
      | connectTrigger => exact fun next hnext => nomatch hnext
  | readerTest i => exact h
  | readerRecv i result => exact h
  | readerTrigger i => exact h

/-! ## The account of the announcements -/

/-- **The account of the connections**, which every step keeps: for each one there is a reader or
`Connect` is still to start it, and what has been announced has been announced of one of them. -/
structure Account (s : LifeRun) : Prop where
  stageState : s.StageState
  events_le : ∀ e ∈ s.life.events, e.1 ≤ s.life.established
  announced_pos : ∀ k ∈ s.announced, 0 < k
  readers_eq : s.readers.length + s.owed = s.life.established
  established_pos : s.life.conn.state = .connected ∨ s.holder = some .disconnectTrigger →
    0 < s.life.established

theorem IsStart.account (h : s.IsStart) : s.Account := by
  cases h with
  | ofAddress =>
    exact ⟨fun _ h => (nomatch h), fun _ h => (nomatch h), fun _ h => (nomatch h), rfl,
      fun h => h.elim (fun h => nomatch h) fun h => nomatch h⟩
  | ofDescriptor fd =>
    exact ⟨fun _ h => (nomatch h), fun _ h => (nomatch h), fun _ h => (nomatch h), rfl,
      fun _ => Nat.one_pos⟩

theorem Account.le_append (h : s.Account) {told : List (ℕ × ConnectionEvent)}
    (htold : ∀ e ∈ told, e.1 = s.life.established) :
    ∀ e ∈ s.life.events ++ told, e.1 ≤ s.life.established := by
  intro e he
  rcases List.mem_append.mp he with he | he
  · exact h.events_le e he
  · exact Nat.le_of_eq (htold e he)

/-- What is announced of a connection is announced of one that has been established. -/
theorem Account.announced_le (h : s.Account) : ∀ k ∈ s.announced, k ≤ s.life.established := by
  intro k hk
  obtain ⟨e, he, rfl⟩ := List.mem_map.mp hk
  exact h.events_le e (List.mem_filter.mp he).1

theorem announced_append {t : LifeRun} {told : List (ℕ × ConnectionEvent)}
    (hevents : t.life.events = s.life.events ++ told) :
    t.announced = s.announced ++ (told.filter fun e => e.2 = .disconnected).map Prod.fst := by
  rw [announced, hevents, List.filter_append, List.map_append, announced]

/-- Being told that it is connected announces no end. -/
theorem announced_of_connected {t : LifeRun} {told : List (ℕ × ConnectionEvent)}
    (htold : ∀ e ∈ told, e = (s.life.established, .connected))
    (hevents : t.life.events = s.life.events ++ told) : t.announced = s.announced := by
  have hnone : (told.filter fun e => e.2 = .disconnected) = [] := by
    refine List.filter_eq_nil_iff.mpr fun e he => ?_
    rw [htold e he]
    simp
  rw [announced_append hevents, hnone, List.map_nil, List.append_nil]

/-- `Disconnect` and the readers announce the end of the present connection. -/
theorem announced_triggerEvent {t : LifeRun}
    (hevents : t.life.events = s.life.events ++ [(s.life.established, .disconnected)]) :
    t.announced = s.announced ++ [s.life.established] := by
  rw [announced_append hevents]
  simp

/-- `Close` announces something else. -/
theorem announced_close : (s.proceed .closeTrigger).announced = s.announced := by
  have hevents : (s.proceed .closeTrigger).life.events
      = s.life.events ++ [(s.life.established, .closed)] := rfl
  rw [announced_append hevents]
  simp

/-- A thread in `Disconnect` does not owe a reader, and neither does one in `Close`. -/
theorem owed_of_holder {stage : Stage} (hholder : s.holder = some stage)
    (hstage : stage ≠ .connectInit) : s.owed = 0 := by
  rw [owed, hholder, if_neg fun h => hstage (Option.some.inj h)]

/-- **Every step keeps the account.** -/
theorem Account.step (h : s.Account) {a : LifeStep} {r : LifeRun × LifeReply}
    (hr : lifeCycle.step s a = some r) : r.1.Account := by
  obtain ⟨henabled, rfl⟩ := lifeCycle_step.mp hr
  have hstage := h.stageState.perform henabled
  have hchange := perform_change henabled
  generalize (s.perform a).1 = t at hstage hchange
  have hnew : ∀ k ∈ s.announced ++ [s.life.established], 0 < s.life.established → 0 < k := by
    intro k hk hpos
    rcases List.mem_append.mp hk with hk | hk
    · exact h.announced_pos k hk
    · rwa [List.mem_singleton.mp hk]
  cases hchange with
  | quiet _ _ told _ _ htold hevents hestablished hreaders hfinished hstate hfree hdue hkeep
      hend =>
    refine ⟨hstage, ?_, ?_, ?_, ?_⟩
    · rw [hevents, hestablished]
      exact h.le_append fun e he => congrArg Prod.fst (htold e he)
    · rw [announced_of_connected htold hevents]
      exact h.announced_pos
    · rw [hreaders, hestablished]
      exact h.readers_eq
    · rw [hestablished]
      rintro (hc | hc)
      · exact h.established_pos (Or.inl (hstate hc))
      · exact h.established_pos ((hdue hc).symm.imp And.right id)
  | connects socket result _ hs ht hsholder htholder hevents hestablished hreaders =>
    refine ⟨hstage, ?_, ?_, ?_, ?_⟩
    · rw [hevents, hestablished]
      exact fun e he => Nat.le_succ_of_le (h.events_le e he)
    · rw [announced, hevents]
      exact h.announced_pos
    · have hbefore := h.readers_eq
      rw [owed, if_neg (by rw [hsholder]; exact nofun)] at hbefore
      rw [hreaders, hestablished, owed, if_pos htholder]
      omega
    · rw [hestablished]
      exact fun _ => Nat.succ_pos _
  | disconnectTold hholder =>
    have hpos := h.established_pos (Or.inr hholder)
    refine ⟨hstage, ?_, ?_, ?_, fun _ => hpos⟩
    · exact h.le_append fun e he => congrArg Prod.fst (List.mem_singleton.mp he)
    · rw [announced_triggerEvent (s := s) rfl]
      exact fun k hk => hnew k hk hpos
    · have heq := h.readers_eq
      rwa [owed_of_holder hholder (by simp)] at heq
  | closeTold hholder =>
    refine ⟨hstage, ?_, ?_, ?_, ?_⟩
    · exact h.le_append fun e he => congrArg Prod.fst (List.mem_singleton.mp he)
    · rw [announced_close]
      exact h.announced_pos
    · have heq := h.readers_eq
      rwa [owed_of_holder hholder (by simp)] at heq
    · exact fun hc => h.established_pos (Or.inl (hc.elim id fun hc => nomatch hc))
  | readerTold i hi =>
    have hpos : 0 < s.life.established := by
      rw [← h.readers_eq]
      exact Nat.add_pos_left (Nat.zero_lt_of_lt (List.getElem?_eq_some_iff.mp hi).1) _
    refine ⟨hstage, ?_, ?_, ?_, h.established_pos⟩
    · exact h.le_append fun e he => congrArg Prod.fst (List.mem_singleton.mp he)
    · rw [announced_triggerEvent (s := s) rfl]
      exact fun k hk => hnew k hk hpos
    · exact (congrArg (· + s.owed) List.length_set).trans h.readers_eq

/-! ## At most one announcement -/

/-- **No end is announced twice**: `DISCONNECTED` is triggered at most once in the time of each
connection. -/
def AnnouncedOnce (s : LifeRun) : Prop := ∀ k, s.announcements k ≤ 1

/-- **No connection is disconnected**: `Disconnect` is not called while the state is
`CONNECTED`. -/
def NotDisconnected (s : LifeRun) : LifeStep → Prop
  | .disconnect => s.life.conn.state ≠ .connected
  | _ => True

/-- **A run without `Disconnect`**: the readers announce the ends, and there is no more than one
connection. -/
structure OnlyReaders (s : LifeRun) : Prop extends s.Account where
  announced_length : s.announced.length = s.finished
  no_trigger : s.holder ≠ some .disconnectTrigger
  no_end : s.holder ≠ some .disconnectEnd
  none_established : s.life.conn.state = .disconnected → s.life.established = 0
  established_le : s.life.established ≤ 1

theorem OnlyReaders.announcedOnce (h : s.OnlyReaders) : s.AnnouncedOnce := by
  intro k
  calc s.announcements k
    _ ≤ s.announced.length := List.count_le_length
    _ = s.finished := h.announced_length
    _ ≤ s.readers.length := List.count_le_length
    _ ≤ s.readers.length + s.owed := Nat.le_add_right _ _
    _ = s.life.established := h.readers_eq
    _ ≤ 1 := h.established_le

theorem IsStart.onlyReaders (h : s.IsStart) : s.OnlyReaders where
  toAccount := h.account
  announced_length := by cases h <;> rfl
  no_trigger := by cases h <;> exact nofun
  no_end := by cases h <;> exact nofun
  none_established := by
    cases h with
    | ofAddress => exact fun _ => rfl
    | ofDescriptor fd => exact fun h => nomatch h
  established_le := by
    cases h with
    | ofAddress => exact Nat.zero_le 1
    | ofDescriptor fd => exact Nat.le_refl 1

theorem OnlyReaders.step (h : s.OnlyReaders) {a : LifeStep} (hno : s.NotDisconnected a)
    {r : LifeRun × LifeReply} (hr : lifeCycle.step s a = some r) : r.1.OnlyReaders := by
  have haccount := h.toAccount.step hr
  obtain ⟨henabled, rfl⟩ := lifeCycle_step.mp hr
  have hchange := perform_change henabled
  generalize (s.perform a).1 = t at haccount hchange
  cases hchange with
  | quiet _ _ told _ _ htold hevents hestablished hreaders hfinished hstate hfree hdue hkeep
      hend =>
    refine ⟨haccount, ?_, fun hc => ?_, fun hc => h.no_end (hend hc), fun hc => ?_, ?_⟩
    · rw [announced_of_connected htold hevents, hfinished]
      exact h.announced_length
    · rcases hdue hc with hholder | ⟨rfl, hconnected⟩
      · exact h.no_trigger hholder
      · exact hno hconnected
    · rw [hestablished]
      exact h.none_established ((hfree hc).resolve_right h.no_end)
    · rw [hestablished]
      exact h.established_le
  | connects socket result _ hs ht hsholder htholder hevents hestablished hreaders =>
    refine ⟨haccount, ?_, ?_, ?_, fun hc => ?_, ?_⟩
    · rw [announced, hevents, finished, hreaders]
      exact h.announced_length
    · rw [htholder]
      exact nofun
    · rw [htholder]
      exact nofun
    · rw [ht] at hc
      cases hc
    · exact Nat.le_of_eq (by rw [hestablished, h.none_established hs])
  | disconnectTold hholder => exact absurd hholder h.no_trigger
  | closeTold hholder =>
    refine ⟨haccount, ?_, nofun, nofun, h.none_established, h.established_le⟩
    rw [announced_close]
    exact h.announced_length
  | readerTold i hi =>
    refine ⟨haccount, ?_, h.no_trigger, h.no_end, h.none_established, h.established_le⟩
    rw [announced_triggerEvent (s := s) rfl, List.length_append, h.announced_length]
    exact (count_set_leaving hi).symm

/-- **A run with a `Disconnect`**: more ends have been announced than readers have finished, or
`Disconnect` is about to do so. -/
structure Overcounted (s : LifeRun) : Prop extends s.Account where
  lt : s.finished < s.announced.length + s.due

/-- The first `Disconnect` that finds the connection connected. -/
theorem OnlyReaders.disconnect (h : s.OnlyReaders) {a : LifeStep} (hno : ¬ s.NotDisconnected a)
    {r : LifeRun × LifeReply} (hr : lifeCycle.step s a = some r) : r.1.Overcounted := by
  have haccount := h.toAccount.step hr
  obtain ⟨-, rfl⟩ := lifeCycle_step.mp hr
  cases a with
  | disconnect =>
    have hconnected : s.life.conn.state = .connected := not_not.mp hno
    have hdisconnect : s.disconnect
        = { s with life := s.life.setState .disconnecting, holder := some .disconnectTrigger } :=
      if_neg (not_not.mpr hconnected)
    refine ⟨haccount, ?_⟩
    show s.disconnect.finished < s.disconnect.announced.length + s.disconnect.due
    rw [hdisconnect]
    show s.finished < s.announced.length + 1
    rw [h.announced_length]
    exact Nat.lt_succ_self _
  | _ => exact absurd trivial hno

/-- Every later step. -/
theorem Overcounted.step (h : s.Overcounted) {a : LifeStep} {r : LifeRun × LifeReply}
    (hr : lifeCycle.step s a = some r) : r.1.Overcounted := by
  have haccount := h.toAccount.step hr
  have hlt := h.lt
  refine ⟨haccount, ?_⟩
  obtain ⟨henabled, rfl⟩ := lifeCycle_step.mp hr
  have hchange := perform_change henabled
  generalize (s.perform a).1 = t at haccount hchange
  cases hchange with
  | quiet _ _ told _ _ htold hevents _ _ hfinished _ _ _ hkeep _ =>
    rw [announced_of_connected htold hevents, hfinished]
    refine Nat.lt_of_lt_of_le hlt (Nat.add_le_add_left ?_ _)
    unfold due
    by_cases hholder : s.holder = some .disconnectTrigger
    · exact Nat.le_of_eq (by rw [if_pos hholder, if_pos (hkeep hholder)])
    · rw [if_neg hholder]
      exact Nat.zero_le _
  | connects socket result _ hs ht hsholder htholder hevents hestablished hreaders =>
    rw [due, if_neg (by rw [hsholder]; exact nofun)] at hlt
    rw [announced, hevents, finished, hreaders]
    exact Nat.lt_add_right _ hlt
  | disconnectTold hholder =>
    rw [due, if_pos hholder] at hlt
    rw [announced_triggerEvent (s := s) rfl, List.length_append]
    exact hlt
  | closeTold hholder =>
    rw [due, if_neg (by rw [hholder]; exact nofun)] at hlt
    rw [announced_close]
    exact hlt
  | readerTold i hi =>
    rw [announced_triggerEvent (s := s) rfl, List.length_append, finished]
    show (s.readers.set i .finished).count .finished < _ + 1 + s.due
    rw [count_set_leaving hi, Nat.add_right_comm]
    exact Nat.succ_lt_succ hlt

/-- Different numbers from 1 to `n` are at most `n` many. -/
theorem length_le_of_nodup {ks : List ℕ} {n : ℕ} (hnodup : ks.Nodup)
    (hmem : ∀ k ∈ ks, 0 < k ∧ k ≤ n) : ks.length ≤ n := by
  have hsubset : ks ⊆ List.range' 1 n := fun k hk => by
    obtain ⟨hpos, hle⟩ := hmem k hk
    exact List.mem_range'_1.mpr (by omega)
  calc ks.length
    _ ≤ (List.range' 1 n).length := (List.subperm_of_subset hnodup hsubset).length_le
    _ = n := List.length_range'

/-- **There are no more readers than connections**: once they have all finished, an announcement
too many falls on a connection of which the end has been announced. -/
theorem Overcounted.not_announcedOnce (h : s.Overcounted) (hholder : s.holder = none)
    (hreaders : ∀ p ∈ s.readers, p = .finished) : ¬ s.AnnouncedOnce := by
  intro honce
  have hfinished : s.finished = s.life.established := by
    have heq := h.readers_eq
    rw [owed, hholder, if_neg nofun] at heq
    rw [← heq, finished, List.count_eq_length.mpr fun p hp => (hreaders p hp).symm]
    rfl
  have hle : s.announced.length ≤ s.life.established :=
    length_le_of_nodup (List.nodup_iff_count_le_one.mpr honce)
      fun k hk => ⟨h.announced_pos k hk, h.announced_le k hk⟩
  have hlt := h.lt
  rw [due, hholder, if_neg nofun] at hlt
  omega

/-! ## How the threads finish -/

/-- The threads go on from a state to another. -/
def Reaches (s t : LifeRun) : Prop :=
  ∃ more os, (∀ a ∈ more, a.GoesOn) ∧ lifeCycle.run s more = some (t, os)

theorem Reaches.refl : s.Reaches s := ⟨[], [], fun _ ha => (nomatch ha), rfl⟩

theorem Reaches.trans {t u : LifeRun} (h : s.Reaches t) (h' : t.Reaches u) : s.Reaches u := by
  obtain ⟨more, os, hmore, hr⟩ := h
  obtain ⟨more', os', hmore', hr'⟩ := h'
  refine ⟨more ++ more', os ++ os', fun a ha => ?_, ?_⟩
  · exact (List.mem_append.mp ha).elim (hmore a) (hmore' a)
  · exact Machine.run_append_eq_some.mpr ⟨t, os, os', hr, hr', rfl⟩

theorem Reaches.step {a : LifeStep} (ha : a.GoesOn) (henabled : s.Enabled a) :
    s.Reaches (s.perform a).1 := by
  refine ⟨[a], [(s.perform a).2], fun b hb => ?_, ?_⟩
  · rwa [List.mem_singleton.mp hb]
  · exact Machine.run_cons_eq_some.mpr
      ⟨_, [], lifeCycle_step.mpr ⟨henabled, rfl⟩, rfl, rfl⟩

/-- The thread in the middle of a call comes to its end. -/
theorem exists_released (s : LifeRun) : ∃ t, s.Reaches t ∧ t.holder = none := by
  have hproceed : ∀ {s : LifeRun} {stage : Stage}, s.holder = some stage →
      s.Reaches (s.proceed stage) := by
    intro s stage hholder
    have hreaches := Reaches.step (s := s) (a := .proceed) trivial
      (by rw [Enabled, hholder]; exact nofun)
    have hperform : (s.perform .proceed).1 = s.proceed stage := by
      rw [perform, hholder]
      rfl
    rwa [hperform] at hreaches
  cases hholder : s.holder with
  | none => exact ⟨s, .refl, hholder⟩
  | some stage =>
    have hfirst := hproceed hholder
    cases stage with
    | disconnectTrigger => exact ⟨_, hfirst.trans (hproceed rfl), rfl⟩
    | connectInit => exact ⟨_, hfirst.trans (hproceed rfl), rfl⟩
    | disconnectEnd => exact ⟨_, hfirst, rfl⟩
    | closeTrigger => exact ⟨_, hfirst, rfl⟩
    | connectTrigger => exact ⟨_, hfirst, rfl⟩

/-- A reader comes to its end, and the others stay where they are. -/
theorem exists_reader_finished {i : ℕ} (hi : i < s.readers.length) :
    ∃ t, s.Reaches t ∧ t.holder = s.holder ∧ t.readers = s.readers.set i .finished := by
  have hleaving : ∀ {s : LifeRun}, s.readers[i]? = some .leaving →
      ∃ t, s.Reaches t ∧ t.holder = s.holder ∧ t.readers = s.readers.set i .finished :=
    fun {s} hs => ⟨_, Reaches.step (a := .readerTrigger i) trivial hs, rfl, rfl⟩
  have hrecv : ∀ {s : LifeRun}, i < s.readers.length → s.readers[i]? = some .recv →
      ∃ t, s.Reaches t ∧ t.holder = s.holder ∧ t.readers = s.readers.set i .finished := by
    intro s hlt hs
    -- the other side closes the connection
    have hfirst := Reaches.step (s := s) (a := .readerRecv i .endOfStream) trivial hs
    obtain ⟨t, hreaches, hholder, hreaders⟩ :=
      hleaving (s := s.readerRecv i .endOfStream) (List.getElem?_set_self hlt)
    exact ⟨t, hfirst.trans hreaches, hholder, hreaders.trans (List.set_set _)⟩
  have hget : s.readers[i]? = some s.readers[i] := List.getElem?_eq_getElem hi
  cases hp : s.readers[i] with
  | finished =>
    refine ⟨s, .refl, rfl, ?_⟩
    rw [← hp, List.set_getElem_self]
  | leaving => exact hleaving (hp ▸ hget)
  | recv => exact hrecv hi (hp ▸ hget)
  | test =>
    have hfirst :=
      Reaches.step (s := s) (a := .readerTest i) trivial (hget.trans (congrArg some hp))
    have hlength : i < (s.readerTest i).readers.length := by
      rw [readerTest, List.length_set]
      exact hi
    have hnext : ∃ t, (s.readerTest i).Reaches t ∧ t.holder = s.holder
        ∧ t.readers = (s.readerTest i).readers.set i .finished := by
      by_cases hstate : s.life.conn.state = .connected
      · refine hrecv hlength ?_
        rw [readerTest, if_pos hstate]
        exact List.getElem?_set_self hi
      · refine hleaving ?_
        rw [readerTest, if_neg hstate]
        exact List.getElem?_set_self hi
    obtain ⟨t, hreaches, hholder, hreaders⟩ := hnext
    exact ⟨t, hfirst.trans hreaches, hholder, hreaders.trans (List.set_set _)⟩

/-- One after the other, they all do. -/
theorem exists_readers_finished (hholder : s.holder = none) : ∀ n ≤ s.readers.length,
    ∃ t, s.Reaches t ∧ t.holder = none ∧ t.readers.length = s.readers.length
      ∧ ∀ i < n, t.readers[i]? = some .finished
  | 0, _ => ⟨s, .refl, hholder, rfl, fun _ hi => absurd hi (Nat.not_lt_zero _)⟩
  | n + 1, hn => by
    obtain ⟨t, hreaches, htholder, hlength, hfinished⟩ :=
      exists_readers_finished hholder n (Nat.le_of_succ_le hn)
    obtain ⟨u, hreaches', huholder, hreaders⟩ :=
      exists_reader_finished (s := t) (i := n) (by omega)
    refine ⟨u, hreaches.trans hreaches', huholder.trans htholder, ?_, fun i hi => ?_⟩
    · rw [hreaders, List.length_set, hlength]
    · rw [hreaders]
      by_cases hin : n = i
      · rw [← hin, List.getElem?_set_self (by omega)]
      · rw [List.getElem?_set_ne hin]
        exact hfinished i (by omega)

/-- **The threads finish**, wherever they stand. -/
theorem exists_finished (s : LifeRun) :
    ∃ t, s.Reaches t ∧ t.holder = none ∧ ∀ p ∈ t.readers, p = .finished := by
  obtain ⟨t, hreaches, hholder⟩ := s.exists_released
  obtain ⟨u, hreaches', huholder, hlength, hfinished⟩ :=
    exists_readers_finished hholder t.readers.length (Nat.le_refl _)
  refine ⟨u, hreaches.trans hreaches', huholder, fun p hp => ?_⟩
  obtain ⟨i, hi, rfl⟩ := List.mem_iff_getElem.mp hp
  have hget := hfinished i (by omega)
  rw [List.getElem?_eq_getElem hi] at hget
  exact Option.some.inj hget

/-! ## The state after the announcement -/

/-- **The life cycle and the state agree**: once the end of the connection has been announced,
it does not count as connected, and `Send` returns an error and enqueues nothing. -/
def Agrees (s : LifeRun) : Prop :=
  s.EndAnnounced → s.life.conn.state ≠ .connected
    ∧ ∀ data alloc io, s.life.conn.send data alloc io = ((s.life.conn, []), .error .notConn)

/-- **A reader announces an end that is one**: the state has been changed when it comes to its
event. -/
def AnnouncesEnd (s : LifeRun) : LifeStep → Prop
  | .readerTrigger _ => s.life.conn.state ≠ .connected
  | _ => True

theorem agrees_iff : s.Agrees ↔ (s.EndAnnounced → s.life.conn.state ≠ .connected) := by
  refine imp_congr_right fun _ => ⟨And.left, fun hstate => ⟨hstate, fun data alloc io => ?_⟩⟩
  rw [TCPConnection.send, if_pos hstate]

/-- **One step keeps the agreement exactly if it announces an end that is one.** -/
theorem agrees_step_iff (h : s.Account) (hagrees : s.Agrees) {a : LifeStep}
    {r : LifeRun × LifeReply} (hr : lifeCycle.step s a = some r) :
    r.1.Agrees ↔ s.AnnouncesEnd a := by
  obtain ⟨henabled, rfl⟩ := lifeCycle_step.mp hr
  have hchange := perform_change henabled
  rw [agrees_iff] at hagrees ⊢
  generalize (s.perform a).1 = t at hchange
  cases hchange with
  | quiet _ _ told _ hreader htold hevents hestablished _ _ hstate _ _ _ _ =>
    have hend : s.AnnouncesEnd a := by
      cases a with
      | readerTrigger i => exact absurd rfl (hreader i)
      | _ => trivial
    have hold : ∀ e : ConnectionEvent, e ≠ .connected →
        (t.life.established, e) ∈ t.life.events → (s.life.established, e) ∈ s.life.events := by
      intro e he hmem
      rw [hevents, hestablished] at hmem
      refine (List.mem_append.mp hmem).resolve_right fun htolde => he ?_
      exact congrArg Prod.snd (htold _ htolde)
    refine iff_of_true (fun hannounced hconnected => ?_) hend
    refine hagrees ?_ (hstate hconnected)
    exact hannounced.imp (hold _ (by simp)) (hold _ (by simp))
  | connects socket result _ _ _ _ _ hevents hestablished _ =>
    refine iff_of_true (fun hannounced => ?_) trivial
    -- nothing has been announced of a connection that has just been established
    have hno : ∀ e : ConnectionEvent, (t.life.established, e) ∉ t.life.events := by
      intro e hmem
      rw [hevents, hestablished] at hmem
      exact absurd (h.events_le _ hmem) (Nat.not_succ_le_self _)
    exact absurd hannounced (not_or_intro (hno _) (hno _))
  | disconnectTold hholder =>
    have hstate := h.stageState _ hholder
    refine iff_of_true (fun _ hconnected => ?_) trivial
    rw [show s.life.conn.state = .connected from hconnected] at hstate
    cases hstate
  | closeTold hholder =>
    have hstate := h.stageState _ hholder
    refine iff_of_true (fun _ hconnected => ?_) trivial
    rw [show s.life.conn.state = .connected from hconnected] at hstate
    cases hstate
  | readerTold i hi =>
    refine ⟨fun hall => hall (Or.inl ?_), fun hend _ => hend⟩
    exact List.mem_append_right _ (List.mem_singleton_self _)

end LifeRun

/-! ## Runs -/

/-- **When a disconnection is announced at most once.** In every run of the calls of any threads
and of the steps of the readers, from a connection built either way and with any results of
`recv`: for each connection that has been established `DISCONNECTED` is triggered at most once,
in the run and however its threads come to their ends, exactly if `Disconnect` has never been
called while the state was `CONNECTED`. -/
theorem announced_once_iff {s t : LifeRun} (hs : s.IsStart) {steps : List LifeStep}
    {replies : List LifeReply} (hr : lifeCycle.run s steps = some (t, replies)) :
    (∀ more : List LifeStep, (∀ a ∈ more, a.GoesOn) →
        lifeCycle.Always LifeRun.AnnouncedOnce s (steps ++ more))
      ↔ lifeCycle.Along LifeRun.NotDisconnected s steps := by
  constructor
  · intro hall
    rcases Machine.run_of_along (I := LifeRun.OnlyReaders) (L := LifeRun.Overcounted)
      (fun _ _ _ h hc hr => h.step hc hr) (fun _ _ _ h hc hr => h.disconnect hc hr)
      (fun _ _ _ h hr => h.step hr) hs.onlyReaders hr with ⟨halong, -⟩ | ⟨-, hover⟩
    · exact halong
    · obtain ⟨u, ⟨more, os, hmore, hrun⟩, hholder, hreaders⟩ := t.exists_finished
      have hovers : lifeCycle.Always LifeRun.Overcounted t more :=
        Machine.always_of_step (fun _ h => h) (fun _ _ _ h hr => h.step hr) hover
      have honce := (hall more hmore).of_run
        (Machine.run_append_eq_some.mpr ⟨t, replies, os, hr, hrun, rfl⟩)
      exact absurd honce ((hovers.of_run hrun).not_announcedOnce hholder hreaders)
  · intro halong more hmore
    have hrest : lifeCycle.Along LifeRun.NotDisconnected t more := by
      refine (lifeCycle.along_of_forall t hmore).imp fun s a hgoes => ?_
      cases a with
      | disconnect => exact absurd hgoes id
      | _ => trivial
    exact Machine.always_of_along (I := LifeRun.OnlyReaders) (fun _ h => h.announcedOnce)
      (fun _ _ _ h hc hr => h.step hc hr) hs.onlyReaders
      ((Machine.along_append hr).mpr ⟨halong, hrest⟩)

/-- `Close` ends the connection, and only the reader announces it as a disconnection. -/
theorem announced_once_closed :
    (∀ more : List LifeStep, (∀ a ∈ more, a.GoesOn) →
        lifeCycle.Always LifeRun.AnnouncedOnce { life := .ofDescriptor 3, readers := [.test] }
          ([.close, .proceed, .readerTest 0, .readerTrigger 0] ++ more))
      ↔ lifeCycle.Along LifeRun.NotDisconnected { life := .ofDescriptor 3, readers := [.test] }
        [.close, .proceed, .readerTest 0, .readerTrigger 0] :=
  announced_once_iff (.ofDescriptor 3) rfl

/-- `Disconnect` announces the end, and so does the reader that notices it. -/
theorem announced_twice :
    ¬ lifeCycle.Always LifeRun.AnnouncedOnce { life := .ofDescriptor 3, readers := [.test] }
      [.readerTest 0, .disconnect, .proceed, .proceed, .readerRecv 0 .endOfStream,
        .readerTrigger 0] := by
  intro h
  have honce := h.of_run rfl 1
  revert honce
  decide

/-- **When the announced life cycle and the state agree.** In every interleaving, once
`DISCONNECTED` or `CLOSED` has been triggered and until the next connection is established,
the connection does not count as connected and `Send` fails without enqueuing, exactly if every
reader that leaves finds the state changed when it triggers its event. -/
theorem announced_agrees_iff {s : LifeRun} (hs : s.IsStart) (steps : List LifeStep) :
    lifeCycle.Always LifeRun.Agrees s steps ↔ lifeCycle.Along LifeRun.AnnouncesEnd s steps := by
  refine Machine.always_iff_along (I := fun s : LifeRun => s.Account ∧ s.Agrees)
    (fun _ h => h.2) ?_ ?_ ⟨hs.account, ?_⟩
  · exact fun _ _ _ h hc hr => ⟨h.1.step hr, (LifeRun.agrees_step_iff h.1 h.2 hr).mpr hc⟩
  · exact fun _ _ _ h hc hr hno => hc ((LifeRun.agrees_step_iff h.1 h.2 hr).mp hno)
  · rw [LifeRun.agrees_iff]
    cases hs <;> exact fun hannounced => hannounced.elim (fun h => nomatch h) fun h => nomatch h

/-- `Disconnect` sets the state before the reader comes to its event. -/
theorem announced_agrees_disconnected :
    lifeCycle.Always LifeRun.Agrees { life := .ofDescriptor 3, readers := [.test] }
        [.disconnect, .proceed, .readerTest 0, .readerTrigger 0, .proceed]
      ↔ lifeCycle.Along LifeRun.AnnouncesEnd { life := .ofDescriptor 3, readers := [.test] }
        [.disconnect, .proceed, .readerTest 0, .readerTrigger 0, .proceed] :=
  announced_agrees_iff (.ofDescriptor 3) _

/-- The other side ends the connection: the end is announced, and the connection counts as
connected. -/
theorem announced_connected :
    ¬ lifeCycle.Always LifeRun.Agrees { life := .ofDescriptor 3, readers := [.test] }
      [.readerTest 0, .readerRecv 0 .endOfStream, .readerTrigger 0] := by
  intro h
  have hagrees := h.of_run rfl
  exact (hagrees (Or.inl (by decide))).1 rfl
