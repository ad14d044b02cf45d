import HttpServer.ConnectionManager
import HttpServer.Cpp

/-!
# The start of a connection

A new connection belongs to two threads from early on. `acceptLoop` of
`application/http/http_server.cpp` constructs it and calls `init`, which starts the reader
thread of `core/Tcp/tcp_connection.cpp`. Only then it sets the id, registers the
connection and sets the data callback. The reader thread receives chunks and passes each to
`TriggerData` of `core/Event/connection_event_mgr.cpp`, which calls the data callback if
there is one.

Here the two are a machine whose runs are the interleavings of their steps; each access to
a member of the connection is one step. Every call of `OnData` sees the final id, since the
callback is set last (`onData_sees_final_id`). But a chunk that is received before that is
dropped: `start_lossless_iff` says that nothing is lost exactly when `TriggerData` finds the
callback set each time.
-/

/-- The next step of the accept thread. -/
inductive AcceptStep
  | setConnection
  | startReader
  | setConnectionId
  | registerConnection
  | setDataCallback
  | finished
  deriving DecidableEq

/-- Where the reader thread is. -/
inductive ReaderPoint
  | notStarted
  /-- At the head of the loop. -/
  | receiving
  /-- In `TriggerData`, before the look at the callback. -/
  | triggerData (data : Bytes)
  /-- In the callback, before `OnData` asks for the id. -/
  | callback (data : Bytes)
  | finished
  deriving DecidableEq

/-- **A connection at its start**: the two threads, the members of the connection that they
share, the bytes that `recv` has returned, and the calls of `OnData`, each with the id it has
seen. -/
structure StartingConnection where
  accept : AcceptStep := .setConnection
  reader : ReaderPoint := .notStarted
  connectionId : UInt64 := 0
  selfConnection : Bool := false
  dataCallback : Bool := false
  received : Bytes := []
  onDataCalls : List (UInt64 × Bytes) := []

/-- The steps of the two threads. Those that ask the connection manager have it with them as
it is at the time. -/
inductive StartAction (C : Type*)
  /-- `SetConnection`, the first line of `init` -/
  | setConnection
  /-- The reader thread is started, the last line of `init`. -/
  | startReader
  | setConnectionId (m : DefaultConnectionManager C)
  | registerConnection (m : DefaultConnectionManager C)
  /-- `SetDataCallback`, in `onNewConnection` -/
  | setDataCallback
  /-- `recv` returns some bytes. -/
  | recv (data : Bytes)
  /-- `recv` returns nothing, or an error that ends the loop. -/
  | recvEnd
  /-- `TriggerData` looks at the callback. -/
  | triggerData
  /-- `OnData` is called. -/
  | onData

/-- The size of the buffer of the reader thread. -/
def readBufferSize : ℕ := 8192

namespace StartingConnection

variable {C : Type*} (s : StartingConnection)

/-! ## The source -/

/-- The accept thread, if it is its turn to do `step`. -/
def acceptTurn (step next : AcceptStep) (s' : StartingConnection) : Option StartingConnection :=
  if s.accept = step then some { s' with accept := next } else none

/-- `recv` in the loop of the reader thread. -/
def recv (data : Bytes) : Option StartingConnection :=
  match s.reader with
  | .receiving =>
    if data = [] ∨ readBufferSize < data.length then none
    else some { s with reader := .triggerData data, received := s.received ++ data }
  | _ => none

def recvEnd : Option StartingConnection :=
  match s.reader with
  | .receiving => some { s with reader := .finished }
  | _ => none

/-- `TriggerData`. What the dispatcher publishes has no subscriber. -/
def triggerData : Option StartingConnection :=
  match s.reader with
  | .triggerData data =>
    if !s.selfConnection then some { s with reader := .receiving }
    else if s.dataCallback then some { s with reader := .callback data }
    else some { s with reader := .receiving }
  | _ => none

/-- The data callback: `OnData` with the id that the connection has. -/
def onData : Option StartingConnection :=
  match s.reader with
  | .callback data =>
    some { s with
      reader := .receiving
      onDataCalls := s.onDataCalls ++ [(s.connectionId, data)] }
  | _ => none

/-- One step of one of the threads. -/
def perform : StartAction C → Option StartingConnection
  | .setConnection => s.acceptTurn .setConnection .startReader { s with selfConnection := true }
  | .startReader => s.acceptTurn .startReader .setConnectionId { s with reader := .receiving }
  | .setConnectionId m =>
    s.acceptTurn .setConnectionId .registerConnection { s with connectionId := m.acceptId }
  | .registerConnection m =>
    s.acceptTurn .registerConnection .setDataCallback
      { s with connectionId := m.storedId s.connectionId }
  | .setDataCallback => s.acceptTurn .setDataCallback .finished { s with dataCallback := true }
  | .recv data => s.recv data
  | .recvEnd => s.recvEnd
  | .triggerData => s.triggerData
  | .onData => s.onData

end StartingConnection

/-- The interleavings of the two threads. -/
def startingConnection (C : Type*) : Machine StartingConnection (StartAction C) Unit where
  step s a := (s.perform a).map fun s' => (s', ())

/-! ## What is to hold -/

namespace StartingConnection

variable (s : StartingConnection)

/-- The bytes that have been passed to `OnData`. -/
def passed : Bytes := (s.onDataCalls.map Prod.snd).flatten

/-- The bytes that are on their way. -/
def inFlight : Bytes :=
  match s.reader with
  | .triggerData data => data
  | .callback data => data
  | _ => []

/-- The id does not change any more. -/
def IdFinal : Prop := s.accept = .setDataCallback ∨ s.accept = .finished

/-- **The start is lossless**: what has been passed to `OnData` is what has been received,
but for the chunk that is on its way, and every call has seen the final id. -/
structure Lossless : Prop where
  passed_eq : s.passed ++ s.inFlight = s.received
  sees : ∀ call ∈ s.onDataCalls, s.IdFinal ∧ call.1 = s.connectionId

/-- **How the threads stand to each other**: the reader thread runs behind `init` only, and
the callback is set, and called, behind the last step of the accept thread only. -/
structure InStep : Prop where
  notStarted : s.accept = .setConnection ∨ s.accept = .startReader → s.reader = .notStarted
  self_set : s.accept ≠ .setConnection → s.selfConnection = true
  callback_set : s.dataCallback = true ↔ s.accept = .finished
  calling : ∀ data, s.reader = .callback data → s.dataCallback = true
  chunk_ne_nil : ∀ data, s.reader = .triggerData data → data ≠ []
  sees : ∀ call ∈ s.onDataCalls, s.dataCallback = true ∧ call.1 = s.connectionId

/-- The callback is set when `TriggerData` looks at it. -/
def CallbackSet {C : Type*} (s : StartingConnection) (a : StartAction C) : Prop :=
  a = .triggerData → s.dataCallback = true

end StartingConnection

/-! ## One step -/

namespace StartingConnection

variable {C : Type*} {s t : StartingConnection} {a : StartAction C}

theorem acceptTurn_eq_some {step next : AcceptStep} {s' : StartingConnection} :
    s.acceptTurn step next s' = some t ↔ s.accept = step ∧ { s' with accept := next } = t := by
  unfold acceptTurn
  split
  · rename_i h
    rw [Option.some.injEq, and_iff_right h]
  · rename_i h
    exact iff_of_false nofun fun h' => h h'.1

theorem recv_eq_some {data : Bytes} :
    s.recv data = some t ↔ s.reader = .receiving ∧ data ≠ [] ∧ data.length ≤ readBufferSize
      ∧ { s with reader := .triggerData data, received := s.received ++ data } = t := by
  unfold recv
  cases s.reader with
  | receiving =>
    dsimp only
    split
    · rename_i h
      refine iff_of_false nofun ?_
      rintro ⟨-, hne, hle, -⟩
      exact h.elim hne (Nat.not_lt.mpr hle)
    · rename_i h
      push Not at h
      rw [Option.some.injEq, and_iff_right rfl, and_iff_right h.1, and_iff_right h.2]
  | _ => exact iff_of_false nofun fun h => nomatch h.1

theorem recvEnd_eq_some :
    s.recvEnd = some t ↔ s.reader = .receiving ∧ { s with reader := .finished } = t := by
  unfold recvEnd
  cases s.reader with
  | receiving => rw [Option.some.injEq, and_iff_right rfl]
  | _ => exact iff_of_false nofun fun h => nomatch h.1

theorem triggerData_eq_some :
    s.triggerData = some t ↔ ∃ data, s.reader = .triggerData data
      ∧ { s with
          reader := if s.selfConnection && s.dataCallback then .callback data
            else .receiving } = t := by
  unfold triggerData
  cases s.reader with
  | triggerData data =>
    simp only [ReaderPoint.triggerData.injEq, exists_eq_left']
    cases s.selfConnection <;> cases s.dataCallback <;> exact Option.some_inj
  | _ => exact iff_of_false nofun fun ⟨_, h, _⟩ => nomatch h

theorem onData_eq_some :
    s.onData = some t ↔ ∃ data, s.reader = .callback data
      ∧ { s with
          reader := .receiving
          onDataCalls := s.onDataCalls ++ [(s.connectionId, data)] } = t := by
  unfold onData
  cases s.reader with
  | callback data =>
    simp only [ReaderPoint.callback.injEq, exists_eq_left', Option.some.injEq]
  | _ => exact iff_of_false nofun fun ⟨_, h, _⟩ => nomatch h

/-- The reader thread has been started behind the first line of `init`. -/
theorem InStep.selfConnection_eq (h : s.InStep) (hreader : s.reader ≠ .notStarted) :
    s.selfConnection = true :=
  h.self_set fun haccept => hreader (h.notStarted (Or.inl haccept))

/-- Until the accept thread is through, there is no callback and no call. -/
theorem InStep.before (h : s.InStep) (haccept : s.accept ≠ .finished) :
    s.dataCallback ≠ true ∧ s.onDataCalls = [] := by
  have hset : s.dataCallback ≠ true := fun hset => haccept (h.callback_set.mp hset)
  refine ⟨hset, List.eq_nil_iff_forall_not_mem.mpr fun call hcall => ?_⟩
  exact hset (h.sees call hcall).1

/-- **A step of the accept thread** up to the registration keeps the threads in step. -/
theorem InStep.acceptTurn (h : s.InStep) (haccept : s.accept ≠ .finished) (next : AcceptStep)
    (hnext : next ≠ .finished) {reader : ReaderPoint} (hreader : reader = s.reader
      ∨ reader = .receiving) (hstarted : next = .startReader → reader = .notStarted)
    (hfirst : next ≠ .setConnection) (id : UInt64) :
    ({ s with accept := next, reader, connectionId := id, selfConnection := true }
      : StartingConnection).InStep := by
  obtain ⟨hset, hcalls⟩ := h.before haccept
  refine ⟨?_, fun _ => rfl, iff_of_false hset hnext, ?_, ?_, ?_⟩
  · rintro (heq | heq)
    · exact absurd heq hfirst
    · exact hstarted heq
  · intro data hdata
    rcases hreader with heq | heq
    · exact h.calling data (heq ▸ hdata)
    · exact nomatch heq.symm.trans hdata
  · intro data hdata
    rcases hreader with heq | heq
    · exact h.chunk_ne_nil data (heq ▸ hdata)
    · exact nomatch heq.symm.trans hdata
  · intro call hcall
    rw [show s.onDataCalls = [] from hcalls] at hcall
    cases hcall

/-- **Every step keeps the threads in step.** -/
theorem InStep.perform (h : s.InStep) (ht : s.perform a = some t) : t.InStep := by
  cases a with
  | setConnection =>
    obtain ⟨haccept, rfl⟩ := acceptTurn_eq_some.mp ht
    have hstarted := h.notStarted (Or.inl haccept)
    exact h.acceptTurn (by rw [haccept]; nofun) .startReader nofun (Or.inl rfl)
      (fun _ => hstarted) nofun s.connectionId
  | startReader =>
    obtain ⟨haccept, rfl⟩ := acceptTurn_eq_some.mp ht
    have hself := h.self_set (by rw [haccept]; nofun)
    have hstep := h.acceptTurn (by rw [haccept]; nofun) .setConnectionId nofun
      (Or.inr rfl) nofun nofun s.connectionId
    rwa [← hself] at hstep
  | setConnectionId m =>
    obtain ⟨haccept, rfl⟩ := acceptTurn_eq_some.mp ht
    have hself := h.self_set (by rw [haccept]; nofun)
    have hstep := h.acceptTurn (by rw [haccept]; nofun) .registerConnection nofun
      (Or.inl rfl) nofun nofun m.acceptId
    rwa [← hself] at hstep
  | registerConnection m =>
    obtain ⟨haccept, rfl⟩ := acceptTurn_eq_some.mp ht
    have hself := h.self_set (by rw [haccept]; nofun)
    have hstep := h.acceptTurn (by rw [haccept]; nofun) .setDataCallback nofun
      (Or.inl rfl) nofun nofun (m.storedId s.connectionId)
    rwa [← hself] at hstep
  | setDataCallback =>
    obtain ⟨haccept, rfl⟩ := acceptTurn_eq_some.mp ht
    have hcalls := (h.before (by rw [haccept]; nofun)).2
    have hself := h.self_set (by rw [haccept]; nofun)
    refine ⟨?_, fun _ => hself, iff_of_true rfl rfl, fun _ _ => rfl, h.chunk_ne_nil, ?_⟩
    · rintro (heq | heq)
      · cases heq
      · cases heq
    · intro call hcall
      rw [show s.onDataCalls = [] from hcalls] at hcall
      cases hcall
  | recv data =>
    obtain ⟨hreader, hne, -, rfl⟩ := recv_eq_some.mp ht
    refine ⟨fun haccept => ?_, h.self_set, h.callback_set, nofun, fun data' hdata => ?_, h.sees⟩
    · exact nomatch hreader.symm.trans (h.notStarted haccept)
    · cases hdata
      exact hne
  | recvEnd =>
    obtain ⟨hreader, rfl⟩ := recvEnd_eq_some.mp ht
    refine ⟨fun haccept => ?_, h.self_set, h.callback_set, nofun, nofun, h.sees⟩
    exact nomatch hreader.symm.trans (h.notStarted haccept)
  | triggerData =>
    obtain ⟨data, hreader, rfl⟩ := triggerData_eq_some.mp ht
    refine ⟨fun haccept => ?_, h.self_set, h.callback_set, fun data' hdata => ?_,
      fun data' hdata => ?_, h.sees⟩
    · exact nomatch hreader.symm.trans (h.notStarted haccept)
    · dsimp only at hdata
      split at hdata
      · rename_i hfound
        exact (Bool.and_eq_true_iff.mp hfound).2
      · cases hdata
    · dsimp only at hdata
      split at hdata <;> cases hdata
  | onData =>
    obtain ⟨data, hreader, rfl⟩ := onData_eq_some.mp ht
    refine ⟨fun haccept => ?_, h.self_set, h.callback_set, nofun, nofun, fun call hcall => ?_⟩
    · exact nomatch hreader.symm.trans (h.notStarted haccept)
    · rcases List.mem_append.mp hcall with hcall | hcall
      · exact h.sees call hcall
      · rw [List.mem_singleton.mp hcall]
        exact ⟨h.calling data hreader, rfl⟩

/-- **A step loses nothing** if `TriggerData` finds the callback. -/
theorem InStep.passed_perform (h : s.InStep) (hset : s.CallbackSet a)
    (heq : s.passed ++ s.inFlight = s.received) (ht : s.perform a = some t) :
    t.passed ++ t.inFlight = t.received := by
  cases a with
  | setConnection =>
    obtain ⟨-, rfl⟩ := acceptTurn_eq_some.mp ht
    exact heq
  | startReader =>
    obtain ⟨haccept, rfl⟩ := acceptTurn_eq_some.mp ht
    have hstarted := h.notStarted (Or.inr haccept)
    rw [inFlight, hstarted] at heq
    exact heq
  | setConnectionId m =>
    obtain ⟨-, rfl⟩ := acceptTurn_eq_some.mp ht
    exact heq
  | registerConnection m =>
    obtain ⟨-, rfl⟩ := acceptTurn_eq_some.mp ht
    exact heq
  | setDataCallback =>
    obtain ⟨-, rfl⟩ := acceptTurn_eq_some.mp ht
    exact heq
  | recv data =>
    obtain ⟨hreader, -, -, rfl⟩ := recv_eq_some.mp ht
    rw [inFlight, hreader, List.append_nil] at heq
    exact congrArg (· ++ data) heq
  | recvEnd =>
    obtain ⟨hreader, rfl⟩ := recvEnd_eq_some.mp ht
    rw [inFlight, hreader] at heq
    exact heq
  | triggerData =>
    obtain ⟨data, hreader, rfl⟩ := triggerData_eq_some.mp ht
    have hself := h.selfConnection_eq (by rw [hreader]; nofun)
    rw [inFlight, hreader] at heq
    rw [hself, hset rfl]
    exact heq
  | onData =>
    obtain ⟨data, hreader, rfl⟩ := onData_eq_some.mp ht
    rw [inFlight, hreader] at heq
    rw [← heq]
    simp only [passed, inFlight, List.map_append, List.map_cons, List.map_nil, List.flatten_append,
      List.flatten_cons, List.flatten_nil, List.append_nil]

/-- **Without the callback the chunk is lost.** -/
theorem InStep.lost (h : s.InStep) (hset : ¬ s.CallbackSet a)
    (heq : s.passed ++ s.inFlight = s.received) (ht : s.perform a = some t) :
    t.passed ++ t.inFlight ≠ t.received := by
  obtain ⟨rfl, hcallback⟩ := Classical.not_imp.mp hset
  obtain ⟨data, hreader, rfl⟩ := triggerData_eq_some.mp ht
  have hne := h.chunk_ne_nil data hreader
  rw [inFlight, hreader] at heq
  rw [Bool.not_eq_true] at hcallback
  rw [hcallback, Bool.and_false, ← heq]
  show s.passed ++ [] ≠ s.passed ++ data
  exact fun hcat => hne (List.append_cancel_left hcat).symm

/-- Whoever is called sees the final id. -/
theorem InStep.sees_final (h : s.InStep) :
    ∀ call ∈ s.onDataCalls, s.IdFinal ∧ call.1 = s.connectionId := by
  intro call hcall
  obtain ⟨hset, hid⟩ := h.sees call hcall
  exact ⟨Or.inr (h.callback_set.mp hset), hid⟩

theorem inStep_start : ({} : StartingConnection).InStep where
  notStarted _ := rfl
  self_set hne := absurd rfl hne
  callback_set := iff_of_false nofun nofun
  calling _ := nofun
  chunk_ne_nil _ := nofun
  sees _ := nofun

end StartingConnection

/-! ## Whole runs -/

open StartingConnection

/-- A step of the machine is one of the threads. -/
theorem perform_of_step {C : Type*} {s : StartingConnection} {a : StartAction C}
    {r : StartingConnection × Unit} (hr : (startingConnection C).step s a = some r) :
    s.perform a = some r.1 := by
  obtain ⟨t, ht, rfl⟩ := Option.map_eq_some_iff.mp hr
  exact ht

/-- **No call of `OnData` sees a provisional id**, however the threads are interleaved. -/
theorem onData_sees_final_id {C : Type*} (actions : List (StartAction C)) :
    (startingConnection C).Always
      (fun s => ∀ call ∈ s.onDataCalls, s.IdFinal ∧ call.1 = s.connectionId) {} actions :=
  Machine.always_of_step (I := InStep) (fun _ h => h.sees_final)
    (fun _ _ _ h hr => h.perform (perform_of_step hr)) inStep_start

/-- **Exactly when the start is lossless.** For every interleaving of the accept thread and
the reader thread and all that is received, what has been passed to `OnData` is what has
been received, with the final id, if and only if `TriggerData` finds the callback set each
time. -/
theorem start_lossless_iff {C : Type*} (actions : List (StartAction C)) :
    (startingConnection C).Always Lossless {} actions
      ↔ (startingConnection C).Along CallbackSet {} actions := by
  refine Machine.always_iff_along
    (I := fun s => s.InStep ∧ s.passed ++ s.inFlight = s.received) ?_ ?_ ?_ ⟨inStep_start, rfl⟩
  · exact fun s h => ⟨h.2, h.1.sees_final⟩
  · intro s a r h hset hr
    have ht := perform_of_step hr
    exact ⟨h.1.perform ht, h.1.passed_perform hset h.2 ht⟩
  · exact fun s a r h hset hr hlossless =>
      h.1.lost hset h.2 (perform_of_step hr) hlossless.passed_eq

/-! ## A chunk that comes early -/

/-- One byte that is received before the id is set is dropped. -/
theorem start_not_lossless :
    ¬ (startingConnection ℕ).Always Lossless {}
      [.setConnection, .startReader, .recv [0x47], .triggerData] := by
  intro halways
  have hrun : (startingConnection ℕ).run {}
      [.setConnection, .startReader, .recv [0x47], .triggerData] = some (_, _) := rfl
  have hpassed := (halways.of_run hrun).passed_eq
  cases hpassed
