import HttpServer.OnData
import HttpServer.Scheduler
import HttpServer.TcpConnection

/-!
# Responses on their way

The thread that runs `OnData`, the workers of the scheduler and one connection, as one
system. `OnData` calls `SendAsync`, which schedules a task, and may call `Close`, which
takes effect at once; a worker that executes the task calls `Send`. Both lock the mutex of
the connection, so each is one step.

What `OnData` calls is one `SendAsync` for each request, in order, with a `Close` behind
the last one if that does not keep the connection (`calls_deliver`). It is the program of
the first thread here. The order of the steps is arbitrary.

Responses reach the connection in order as long as they are sent in turn
(`responses_in_order_iff`), which nothing in the source makes two workers do
(`responses_overtaken`). And a response that is still on its way when `Close` is called is
lost, whether a worker has not sent it yet or the socket has not taken all of it:
`close_loses_none_iff`.
-/

/-! ## What `OnData` calls -/

/-- One response after the other, and the end of the connection. -/
def onDataCalls (responses : List Bytes) (close : Bool) : List ConnCall :=
  responses.map .sendAsync ++ if close then [.close] else []

namespace HttpProtocolHandler

variable {σ : Type*} (h : HttpProtocolHandler σ) (env : Environment σ)

/-- The request is answered with this text. -/
def AnsweredWith (req : HttpRequest) (text : Bytes) : Prop :=
  ∃ w w', handleRequest h env w req = (.ok (), w') ∧ w'.calls = w.calls ++ [.sendAsync text]

/-- The calls of a run of the receiver: an answer to each request, and a `close` if it
stopped. The last request may have thrown instead. -/
structure CallsOf (w : World σ)
    (d : Consumer.Run UInt8 (HttpRequest × Bool) StdException (World σ))
    (responses : List Bytes) : Prop where
  calls_eq : d.state.calls
    = w.calls ++ onDataCalls responses (decide (endingOf d.outcome = .closed))
  answered : List.Forall₂ (AnsweredWith h env) ((d.items.map Prod.fst).take responses.length)
    responses
  length_eq : (∀ e, d.outcome ≠ .failed e) → responses.length = d.items.length

variable {h env}

variable (h env) in
/-- The receiver makes the calls of `OnData`. -/
theorem calls_drain (s : Bytes) (w : World σ) :
    ∃ responses, CallsOf h env w (Consumer.drain httpDecoder (receive h env) s w) responses := by
  induction hn : s.length using Nat.strongRecOn generalizing s w with
  | _ n ih =>
    cases hnext : nextRequest s with
    | more =>
      rw [Consumer.drain_more (D := httpDecoder) hnext]
      exact ⟨[], (List.append_nil _).symm, .nil, fun _ => rfl⟩
    | fail e =>
      rw [Consumer.drain_fail (D := httpDecoder) hnext]
      exact ⟨[], (List.append_nil _).symm, .nil, fun _ => rfl⟩
    | item item rest =>
      obtain ⟨req, keep⟩ := item
      have hlt : rest.length < s.length := httpDecoder.length_lt hnext
      rw [Consumer.drain_item (D := httpDecoder) hnext, receive]
      have hcalls := handleRequest_calls h env { w with totalRequests := w.totalRequests + 1 } req
      rcases hreq : handleRequest h env { w with totalRequests := w.totalRequests + 1 } req
        with ⟨e | ⟨⟩, w'⟩
      · rw [hreq] at hcalls
        exact ⟨[], hcalls.trans (List.append_nil _).symm, .nil, fun hno => absurd rfl (hno e)⟩
      rw [hreq] at hcalls
      obtain ⟨text, htext⟩ := hcalls
      have hanswer : AnsweredWith h env req text := ⟨_, _, hreq, htext⟩
      cases keep with
      | false =>
        refine ⟨[text], ?_, .cons hanswer .nil, fun _ => rfl⟩
        show w'.calls ++ [.close] = _
        rw [htext, List.append_assoc]
        rfl
      | true =>
        obtain ⟨responses, hrest⟩ := ih rest.length (hn ▸ hlt) rest w' rfl
        refine ⟨text :: responses, ?_, .cons hanswer hrest.answered, fun hno => ?_⟩
        · show (Consumer.drain httpDecoder (receive h env) rest w').state.calls = _
          rw [hrest.calls_eq, htext, List.append_assoc]
          rfl
        · exact congrArg (· + 1) (hrest.length_eq hno)

/-- **What `OnData` calls**, however the stream is cut: an answer to each request, in the
order in which they were parsed, and a `close` behind them if it ends the connection. -/
theorem calls_deliver (hrun : h.running = true) (chunks : List (ℕ × Bytes)) (w : World σ)
    (hno : NoSpeedTest (chunks.map Prod.snd).flatten) :
    ∃ responses, (deliver h env chunks w).world.calls
        = w.calls ++ onDataCalls responses (decide ((deliver h env chunks w).ending = .closed))
      ∧ List.Forall₂ (AnsweredWith h env)
        ((deliver h env chunks w).requests.take responses.length) responses
      ∧ ((∀ e, (deliver h env chunks w).ending ≠ .raised e) →
        responses.length = (deliver h env chunks w).requests.length) := by
  have hm := deliver_matches env hrun chunks w hno.noUpgrade
  obtain ⟨responses, hcalls⟩ := calls_drain h env (chunks.map Prod.snd).flatten w
  refine ⟨responses, ?_, ?_, fun hno => ?_⟩
  · rw [hm.world_eq, hm.ending_eq]
    exact hcalls.calls_eq
  · rw [hm.requests_eq]
    exact hcalls.answered
  · rw [hm.requests_eq, List.length_map]
    refine hcalls.length_eq fun e he => hno e ?_
    rw [hm.ending_eq, he]
    rfl

end HttpProtocolHandler

/-! ## The system -/

/-- The task that `SendAsync` schedules, with its place among those of the connection. -/
structure SendTask where
  number : ℕ
  data : Bytes
  deriving DecidableEq

/-- **The system**: the scheduler and the connection, what `OnData` has still to call and
the tasks it has scheduled, and what the workers have done. -/
structure Pipeline where
  scheduler : ThreadPoolScheduler SendTask
  conn : TCPConnection
  calls : List ConnCall
  scheduled : List SendTask := []
  /-- The tasks whose `Send` has found the connection open, in this order. -/
  sent : List SendTask := []
  /-- What the socket has taken. -/
  wire : Bytes := []
  deriving DecidableEq

/-- A step of one of the threads. -/
inductive PipelineAction
  /-- The next call of `OnData`. -/
  | onData
  /-- A step of the scheduler that neither schedules nor executes a task. -/
  | scheduler (a : SchedulerAction SendTask)
  /-- A worker executes its task, with the outcomes of the allocation and of the socket. -/
  | send (i : ℕ) (alloc : Bool) (io : ℕ → SendOutcome)

namespace Pipeline

/-- A new connection and a scheduler that has been started. -/
def start (workers maxConcurrent : ℕ) (fd : ℤ) (maxSendQueueSize : UInt64)
    (calls : List ConnCall) : Pipeline :=
  ⟨.started workers maxConcurrent, .ofFd fd maxSendQueueSize, calls, [], [], []⟩

/-- The next call of `OnData`. A call is made when the one before is complete, the
notification included. The calls of an upgrade belong to a system of their own. -/
def callNext (s : Pipeline) : Option Pipeline :=
  if s.scheduler.notifyOnes ≠ 0 then none
  else
    match s.calls with
    | .sendAsync data :: calls =>
      let task := ⟨s.scheduled.length, data⟩
      (s.scheduler.step (.scheduleTask task)).map fun scheduler =>
        { s with scheduler, calls, scheduled := s.scheduled ++ [task] }
    | .close :: calls => some { s with conn := s.conn.close, calls }
    | _ => none

/-- A worker executes its task. What `Send` reports goes into a future that nobody asks, so
to the scheduler the task returns. -/
def execute (s : Pipeline) (i : ℕ) (alloc : Bool) (io : ℕ → SendOutcome) : Option Pipeline :=
  match s.scheduler.workers[i]? with
  | some (.running task) =>
    let r := s.conn.send task.data alloc io
    (s.scheduler.step (.execute i true)).map fun scheduler =>
      { s with
        scheduler
        conn := r.1.1
        wire := s.wire ++ r.1.2
        sent := if s.conn.state = .connected then s.sent ++ [task] else s.sent }
  | _ => none

/-- One step of one of the threads. -/
def step (s : Pipeline) : PipelineAction → Option Pipeline
  | .onData => s.callNext
  | .scheduler a =>
    if a.onTask then none else (s.scheduler.step a).map fun scheduler => { s with scheduler }
  | .send i alloc io => s.execute i alloc io

/-- The system as a machine; its steps have no results. -/
def machine : Machine Pipeline PipelineAction Unit :=
  ⟨fun s a => (s.step a).map fun s => (s, ())⟩

/-- What has been queued on the connection since it was made. -/
def queued (s : Pipeline) : Bytes := s.wire ++ s.conn.pending

/-- **The stream is in order**: what the sends so far have queued is the concatenation of
as many responses, from the first one on. -/
def InOrder (responses : List Bytes) (s : Pipeline) : Prop :=
  s.queued = (responses.take s.sent.length).flatten

/-- **The sends are in order**: those executed so far are the first ones scheduled. -/
def SentInOrder (s : Pipeline) : Prop := s.sent <+: s.scheduled

/-- **The client gets its responses**: what has been sent is on the wire or pending, and once
the connection is not open any more, every response that was scheduled has been sent and all
of it is on the wire. -/
structure Delivered (s : Pipeline) : Prop where
  queued_eq : s.queued = (s.sent.map SendTask.data).flatten
  all_sent : s.conn.state ≠ .connected → s.sent.Perm s.scheduled
  on_wire : s.conn.state ≠ .connected → s.wire = (s.sent.map SendTask.data).flatten

/-- **In turn**: a worker executes its task while no other one holds an earlier one. -/
def InTurn (s : Pipeline) : PipelineAction → Prop
  | .send i _ _ => ∀ task, s.scheduler.workers[i]? = some (.running task) →
      ∀ task' ∈ s.scheduler.pool.held, task.number ≤ task'.number
  | _ => True

/-- **There is room**: a task is executed while the connection accepts its data. -/
def HasRoom (s : Pipeline) : PipelineAction → Prop
  | .send i alloc _ => ∀ task, s.scheduler.workers[i]? = some (.running task) →
      s.conn.connectionBuffer.Accepts task.data alloc
  | _ => True

/-- **The connection is closed when its responses are out**: while it is open it has room for
them, and at `Close` no task of it is queued or in the hands of a worker and nothing is left
in its send queue, unless the connection has no socket. -/
structure ClosesLast (s : Pipeline) (a : PipelineAction) : Prop where
  hasRoom : s.conn.state = .connected → s.HasRoom a
  out : a = .onData → s.calls.head? = some .close → 0 ≤ s.conn.socketFd →
    s.scheduler.pool.outstanding = [] ∧ s.conn.pending = []

/-! ## What a step does -/

/-- The state after a worker has executed its task. -/
def afterSend (s : Pipeline) (scheduler : ThreadPoolScheduler SendTask) (task : SendTask)
    (alloc : Bool) (io : ℕ → SendOutcome) : Pipeline :=
  { s with
    scheduler
    conn := (s.conn.send task.data alloc io).1.1
    wire := s.wire ++ (s.conn.send task.data alloc io).1.2
    sent := if s.conn.state = .connected then s.sent ++ [task] else s.sent }

/-- **What a step does** to the tasks and to the connection. -/
inductive Effect (s : Pipeline) : PipelineAction → Pipeline → Prop
  /-- `OnData` schedules a response. -/
  | schedule {data : Bytes} {calls : List ConnCall} {scheduler : ThreadPoolScheduler SendTask}
      (hcalls : s.calls = .sendAsync data :: calls)
      (hpool : WorkPool.Step s.scheduler.pool (.put ⟨s.scheduled.length, data⟩) scheduler.pool) :
      Effect s .onData
        { s with scheduler, calls, scheduled := s.scheduled ++ [⟨s.scheduled.length, data⟩] }
  /-- `OnData` closes the connection. -/
  | close {calls : List ConnCall} (hcalls : s.calls = .close :: calls) :
      Effect s .onData { s with conn := s.conn.close, calls }
  /-- The scheduler is busy with itself. -/
  | idle {a : SchedulerAction SendTask} {scheduler : ThreadPoolScheduler SendTask}
      (hpool : scheduler.pool = s.scheduler.pool) : Effect s (.scheduler a) { s with scheduler }
  /-- A worker takes a task. -/
  | take {a : SchedulerAction SendTask} {scheduler : ThreadPoolScheduler SendTask} {i : ℕ}
      (hpool : WorkPool.Step s.scheduler.pool (.take i) scheduler.pool) :
      Effect s (.scheduler a) { s with scheduler }
  /-- A worker executes its task. -/
  | send {i : ℕ} {alloc : Bool} {io : ℕ → SendOutcome} {task : SendTask}
      {scheduler : ThreadPoolScheduler SendTask}
      (hworker : s.scheduler.workers[i]? = some (.running task))
      (hpool : WorkPool.Step s.scheduler.pool (.finish i task) scheduler.pool) :
      Effect s (.send i alloc io) (s.afterSend scheduler task alloc io)

theorem effect_of_callNext {s s' : Pipeline} (h : s.callNext = some s') : Effect s .onData s' := by
  unfold callNext at h
  split at h
  · cases h
  split at h
  · rename_i data calls hcalls
    obtain ⟨scheduler, hstep, rfl⟩ := Option.map_eq_some_iff.mp h
    exact .schedule hcalls (ThreadPoolScheduler.step_pool hstep)
  · rename_i calls hcalls
    cases h
    exact .close hcalls
  · cases h

theorem effect_of_execute {s s' : Pipeline} {i : ℕ} {alloc : Bool} {io : ℕ → SendOutcome}
    (h : s.execute i alloc io = some s') : Effect s (.send i alloc io) s' := by
  unfold execute at h
  split at h
  · rename_i task hworker
    obtain ⟨scheduler, hstep, rfl⟩ := Option.map_eq_some_iff.mp h
    have hpool := ThreadPoolScheduler.step_pool hstep
    rw [ThreadPoolScheduler.moveOf, hworker] at hpool
    exact .send hworker hpool
  · cases h

/-- A step of the scheduler that neither schedules nor executes a task. -/
theorem effect_of_scheduler {s : Pipeline} {a : SchedulerAction SendTask}
    {scheduler : ThreadPoolScheduler SendTask} (h : s.scheduler.step a = some scheduler)
    (ha : a.onTask = false) : Effect s (.scheduler a) { s with scheduler } := by
  have hpool := ThreadPoolScheduler.step_pool h
  rcases ThreadPoolScheduler.moveOf_eq (s := s.scheduler) ha with hmove | ⟨i, hmove⟩
  · rw [hmove] at hpool
    exact .idle hpool.eq_of_rest
  · rw [hmove] at hpool
    exact .take hpool

theorem effect_of_step {s : Pipeline} {a : PipelineAction} {r : Pipeline × Unit}
    (h : machine.step s a = some r) : Effect s a r.1 := by
  obtain ⟨s', hstep, rfl⟩ := Option.map_eq_some_iff.mp h
  cases a with
  | onData => exact effect_of_callNext hstep
  | send i alloc io => exact effect_of_execute hstep
  | scheduler a =>
    rw [step] at hstep
    split at hstep
    · cases hstep
    · rename_i ha
      obtain ⟨scheduler, hs, rfl⟩ := Option.map_eq_some_iff.mp hstep
      exact effect_of_scheduler hs (Bool.eq_false_of_not_eq_true ha)

/-! ## The account of the tasks -/

/-- **The tasks of the connection**: they are numbered as they were scheduled, and each of
them has been sent, is queued or in the hands of a worker. -/
structure Accounted (s : Pipeline) : Prop where
  account : WorkPool.Account s.scheduler.pool s.scheduled s.sent
  numbered : s.scheduled.map SendTask.number = List.range s.scheduled.length

variable {s : Pipeline}

theorem start_accounted (workers maxConcurrent : ℕ) (fd : ℤ) (maxSendQueueSize : UInt64)
    (calls : List ConnCall) :
    (start workers maxConcurrent fd maxSendQueueSize calls).Accounted where
  account := by
    have hpool : (ThreadPoolScheduler.started workers maxConcurrent : ThreadPoolScheduler
        SendTask).pool = ⟨[], List.replicate workers none⟩ :=
      congrArg (WorkPool.mk []) List.map_replicate
    show WorkPool.Account (ThreadPoolScheduler.started workers maxConcurrent).pool [] []
    rw [hpool]
    exact .start workers
  numbered := rfl

/-- Later tasks have higher numbers. -/
theorem Accounted.pairwise (h : s.Accounted) :
    s.scheduled.Pairwise fun task task' => task.number < task'.number := by
  have hrange : (List.range s.scheduled.length).Pairwise (· < ·) := List.pairwise_lt_range
  rwa [← h.numbered, List.pairwise_map] at hrange

theorem Accounted.schedule (h : s.Accounted) {data : Bytes} {calls : List ConnCall}
    {scheduler : ThreadPoolScheduler SendTask}
    (hpool : WorkPool.Step s.scheduler.pool (.put ⟨s.scheduled.length, data⟩) scheduler.pool) :
    Accounted { s with
      scheduler, calls, scheduled := s.scheduled ++ [⟨s.scheduled.length, data⟩] } where
  account := h.account.put hpool
  numbered := by
    rw [List.map_append, h.numbered, List.length_append, List.length_singleton, List.range_succ]
    rfl

theorem Accounted.idle (h : s.Accounted) {scheduler : ThreadPoolScheduler SendTask}
    (hpool : scheduler.pool = s.scheduler.pool) : Accounted { s with scheduler } where
  account := by
    rw [hpool]
    exact h.account
  numbered := h.numbered

theorem Accounted.take (h : s.Accounted) {scheduler : ThreadPoolScheduler SendTask} {i : ℕ}
    (hpool : WorkPool.Step s.scheduler.pool (.take i) scheduler.pool) :
    Accounted { s with scheduler } where
  account := h.account.take hpool
  numbered := h.numbered

theorem Accounted.send (h : s.Accounted) {i : ℕ} {task : SendTask}
    {scheduler : ThreadPoolScheduler SendTask}
    (hpool : WorkPool.Step s.scheduler.pool (.finish i task) scheduler.pool)
    (hopen : s.conn.state = .connected) (alloc : Bool) (io : ℕ → SendOutcome) :
    (s.afterSend scheduler task alloc io).Accounted where
  account := by
    unfold afterSend
    rw [if_pos hopen]
    exact h.account.finish hpool
  numbered := h.numbered

/-- What is not finished has not been sent. -/
theorem Accounted.notMem_sent (h : s.Accounted) {task : SendTask}
    (htask : task ∈ s.scheduler.pool.outstanding) : task ∉ s.sent := by
  have hnodup : s.scheduled.Nodup := h.pairwise.imp fun hlt heq => by
    rw [heq] at hlt
    exact Nat.lt_irrefl _ hlt
  intro hsent
  exact (List.nodup_append.mp (h.account.perm.nodup_iff.mpr hnodup)).2.2 task hsent task htask rfl

/-! ## What the sends have queued -/

/-- What has been queued are the data of the tasks that have been sent. -/
structure Carried (s : Pipeline) : Prop where
  wellFormed : s.conn.connectionBuffer.WellFormed
  queued_eq : s.queued = (s.sent.map SendTask.data).flatten

theorem start_carried (workers maxConcurrent : ℕ) (fd : ℤ) (maxSendQueueSize : UInt64)
    (calls : List ConnCall) :
    (start workers maxConcurrent fd maxSendQueueSize calls).Carried :=
  ⟨⟨nofun, nofun, fun _ => rfl⟩, rfl⟩

/-- A `Send` that finds the connection open and room for the data queues them. -/
theorem queued_afterSend (hwf : s.conn.connectionBuffer.WellFormed)
    (hopen : s.conn.state = .connected) {task : SendTask} {alloc : Bool}
    (hroom : s.conn.connectionBuffer.Accepts task.data alloc) (io : ℕ → SendOutcome)
    (scheduler : ThreadPoolScheduler SendTask) :
    (s.afterSend scheduler task alloc io).queued = s.queued ++ task.data := by
  obtain ⟨-, hwire, -⟩ := TCPConnection.send_spec hwf hopen task.data alloc io
  have hdata : (s.conn.connectionBuffer.enqueued task.data alloc).flatten = task.data := by
    unfold ConnectionBufferManager.enqueued
    by_cases hnil : task.data = []
    · rw [if_neg (fun h => h.1 hnil), hnil, List.flatten_nil]
    · rw [if_pos ⟨hnil, hroom⟩, List.flatten_singleton]
  rw [hdata] at hwire
  unfold queued
  show (s.wire ++ _) ++ _ = _
  rw [List.append_assoc, List.append_assoc]
  exact congrArg (s.wire ++ ·) hwire

/-- A `Send` that finds no room for the data drops them. -/
theorem queued_afterSend_of_not_accepts (hwf : s.conn.connectionBuffer.WellFormed)
    (hopen : s.conn.state = .connected) {task : SendTask} {alloc : Bool}
    (hroom : ¬ s.conn.connectionBuffer.Accepts task.data alloc) (io : ℕ → SendOutcome)
    (scheduler : ThreadPoolScheduler SendTask) :
    (s.afterSend scheduler task alloc io).queued = s.queued := by
  obtain ⟨-, hwire, -⟩ := TCPConnection.send_spec hwf hopen task.data alloc io
  have hdata : s.conn.connectionBuffer.enqueued task.data alloc = [] :=
    if_neg fun h => hroom h.2
  rw [hdata, List.flatten_nil, List.append_nil] at hwire
  unfold queued
  show (s.wire ++ _) ++ _ = _
  rw [List.append_assoc]
  exact congrArg (s.wire ++ ·) hwire

/-- A `Send` that finds the connection closed does nothing to it. -/
theorem afterSend_of_closed (hclosed : s.conn.state ≠ .connected)
    (scheduler : ThreadPoolScheduler SendTask) (task : SendTask) (alloc : Bool)
    (io : ℕ → SendOutcome) :
    s.afterSend scheduler task alloc io = { s with scheduler } := by
  unfold afterSend TCPConnection.send
  simp only [if_pos hclosed, if_neg hclosed, List.append_nil]

theorem Carried.step {a : PipelineAction} {s' : Pipeline} (h : s.Carried)
    (hroom : s.conn.state = .connected → s.HasRoom a) (heffect : s.Effect a s') :
    s'.Carried := by
  cases heffect with
  | schedule hcalls hpool => exact ⟨h.wellFormed, h.queued_eq⟩
  | idle hpool => exact ⟨h.wellFormed, h.queued_eq⟩
  | take hpool => exact ⟨h.wellFormed, h.queued_eq⟩
  | close hcalls =>
    have hbuffer := s.conn.connectionBuffer_close
    have hqueued : s.wire ++ s.conn.close.connectionBuffer.pending = s.queued := by
      rw [hbuffer]
      rfl
    exact ⟨hbuffer ▸ h.wellFormed, hqueued.trans h.queued_eq⟩
  | send hworker hpool =>
    rename_i i alloc io task scheduler
    by_cases hopen : s.conn.state = .connected
    · refine ⟨(TCPConnection.send_spec h.wellFormed hopen task.data alloc io).1, ?_⟩
      have hsent : (s.afterSend scheduler task alloc io).sent = s.sent ++ [task] := if_pos hopen
      rw [queued_afterSend h.wellFormed hopen (hroom hopen task hworker), hsent, h.queued_eq,
        List.map_append, List.flatten_append]
      simp
    · rw [afterSend_of_closed hopen]
      exact ⟨h.wellFormed, h.queued_eq⟩

/-! ## Responses in order -/

/-- **The invariant of a run in which responses are sent in turn.** -/
structure Ordered (responses : List Bytes) (s : Pipeline) : Prop extends s.Accounted where
  connected : s.conn.state = .connected
  program : ∃ rest, s.calls = onDataCalls rest false
    ∧ s.scheduled.map SendTask.data ++ rest = responses
  sent_prefix : s.SentInOrder

variable {responses : List Bytes}

theorem Ordered.inOrder (h : Ordered responses s) (hcarried : s.Carried) :
    InOrder responses s := by
  obtain ⟨rest, -, hrest⟩ := h.program
  have hprefix : s.sent.map SendTask.data <+: responses := by
    rw [← hrest]
    exact (List.IsPrefix.map SendTask.data h.sent_prefix).trans (List.prefix_append _ _)
  have htake := List.prefix_iff_eq_take.mp hprefix
  rw [List.length_map] at htake
  rw [InOrder, hcarried.queued_eq, htake]

/-- A worker that executes a task holds it. -/
theorem mem_held_of_running {i : ℕ} {task : SendTask}
    (hworker : s.scheduler.workers[i]? = some (.running task)) :
    task ∈ s.scheduler.pool.held :=
  WorkPool.mem_held_of_hands (ThreadPoolScheduler.hands_getElem? hworker)

/-- **One step** that is in turn keeps the order. -/
theorem Ordered.step {a : PipelineAction} {s' : Pipeline} (h : Ordered responses s)
    (hturn : s.InTurn a) (heffect : s.Effect a s') : Ordered responses s' := by
  obtain ⟨rest, hcalls, hrest⟩ := h.program
  cases heffect with
  | schedule hcalls' hpool =>
    rw [hcalls] at hcalls'
    cases rest with
    | nil => cases hcalls'
    | cons data rest =>
      cases hcalls'
      refine ⟨h.toAccounted.schedule hpool, h.connected, ⟨rest, rfl, ?_⟩,
        List.IsPrefix.trans h.sent_prefix (List.prefix_append _ _)⟩
      rw [List.map_append, List.append_assoc, ← hrest]
      rfl
  | close hcalls' =>
    rw [hcalls] at hcalls'
    cases rest <;> cases hcalls'
  | idle hpool => exact ⟨h.toAccounted.idle hpool, h.connected, h.program, h.sent_prefix⟩
  | take hpool => exact ⟨h.toAccounted.take hpool, h.connected, h.program, h.sent_prefix⟩
  | send hworker hpool =>
    rename_i i alloc io task scheduler
    refine ⟨h.toAccounted.send hpool h.connected alloc io,
      (TCPConnection.state_send _ _ _ _).trans h.connected, h.program, ?_⟩
    show (if s.conn.state = .connected then s.sent ++ [task] else s.sent) <+: s.scheduled
    rw [if_pos h.connected]
    exact (h.account.finish_prefix_iff h.pairwise h.sent_prefix
      (mem_held_of_running hworker)).mpr (hturn task hworker)

/-- A step out of turn breaks the order. -/
theorem Ordered.not_sentInOrder {a : PipelineAction} {s' : Pipeline} (h : Ordered responses s)
    (hturn : ¬ s.InTurn a) (heffect : s.Effect a s') : ¬ s'.SentInOrder := by
  intro hsent
  cases heffect with
  | schedule hcalls hpool => exact hturn trivial
  | close hcalls => exact hturn trivial
  | idle hpool => exact hturn trivial
  | take hpool => exact hturn trivial
  | send hworker hpool =>
    rename_i i alloc io task scheduler
    refine hturn fun task' hworker' => ?_
    cases hworker.symm.trans hworker'
    refine (h.account.finish_prefix_iff h.pairwise h.sent_prefix
      (mem_held_of_running hworker)).mp ?_
    have hnext : (if s.conn.state = .connected then s.sent ++ [task] else s.sent)
        <+: s.scheduled := hsent
    rwa [if_pos h.connected] at hnext

theorem start_ordered (workers maxConcurrent : ℕ) (fd : ℤ) (maxSendQueueSize : UInt64)
    (responses : List Bytes) :
    Ordered responses
      (start workers maxConcurrent fd maxSendQueueSize (onDataCalls responses false)) where
  toAccounted := start_accounted _ _ _ _ _
  connected := rfl
  program := ⟨responses, rfl, rfl⟩
  sent_prefix := List.nil_prefix

/-- **Pipelined responses leave in request order exactly as long as they are sent in turn.**
On a connection that is kept, with any responses, number of workers and limits: the sends of
a run are executed in the order of the requests exactly if each is executed while no other
worker holds an earlier response. And if there is room for the data as well, then what has
been queued is in every state the concatenation of the first responses, as many as have
been sent. -/
theorem responses_in_order_iff (workers maxConcurrent : ℕ) (fd : ℤ) (maxSendQueueSize : UInt64)
    (responses : List Bytes) (actions : List PipelineAction) :
    let s := start workers maxConcurrent fd maxSendQueueSize (onDataCalls responses false)
    (machine.Always SentInOrder s actions ↔ machine.Along InTurn s actions)
      ∧ (machine.Along (fun s a => s.InTurn a ∧ s.HasRoom a) s actions →
        machine.Always (InOrder responses) s actions) := by
  refine ⟨?_, ?_⟩
  · exact Machine.always_iff_along (I := Ordered responses) (fun _ h => h.sent_prefix)
      (fun _ _ _ h hc hr => h.step hc (effect_of_step hr))
      (fun _ _ _ h hc hr => h.not_sentInOrder hc (effect_of_step hr))
      (start_ordered workers maxConcurrent fd maxSendQueueSize responses)
  · exact Machine.always_of_along (I := fun s => Ordered responses s ∧ s.Carried)
      (fun _ h => h.1.inOrder h.2)
      (fun _ _ _ h hc hr =>
        ⟨h.1.step hc.1 (effect_of_step hr), h.2.step (fun _ => hc.2) (effect_of_step hr)⟩)
      ⟨start_ordered workers maxConcurrent fd maxSendQueueSize responses,
        start_carried workers maxConcurrent fd maxSendQueueSize _⟩

/-- **One worker sends in turn.** -/
theorem one_worker_ordered (maxConcurrent : ℕ) (fd : ℤ) (maxSendQueueSize : UInt64)
    (responses : List Bytes) (actions : List PipelineAction)
    (hroom : machine.Along HasRoom
      (start 1 maxConcurrent fd maxSendQueueSize (onDataCalls responses false)) actions) :
    machine.Always (fun s => Ordered responses s ∧ s.Carried)
      (start 1 maxConcurrent fd maxSendQueueSize (onDataCalls responses false)) actions := by
  refine Machine.always_of_along
    (I := fun s => (Ordered responses s ∧ s.Carried) ∧ s.scheduler.pool.hands.length = 1)
    (fun _ h => h.1) ?_
    ⟨⟨start_ordered _ _ _ _ responses, start_carried _ _ _ _ _⟩, rfl⟩ hroom
  rintro s a r ⟨⟨hordered, hcarried⟩, hone⟩ hc hr
  have heffect := effect_of_step hr
  have hturn : s.InTurn a := by
    cases a with
    | send i alloc io =>
      intro task hworker task' htask'
      rw [WorkPool.eq_of_mem_held hone (mem_held_of_running hworker) htask']
    | onData => exact trivial
    | scheduler a => exact trivial
  refine ⟨⟨hordered.step hturn heffect, hcarried.step (fun _ => hc) heffect⟩, ?_⟩
  rw [← hone]
  generalize r.1 = s' at heffect
  cases heffect with
  | schedule hcalls hpool => exact hpool.length_hands
  | close hcalls => rfl
  | idle hpool => exact congrArg (fun p => p.hands.length) hpool
  | take hpool => exact hpool.length_hands
  | send hworker hpool => exact hpool.length_hands

/-- The steps of a worker that takes a task. -/
def takeTask (i : ℕ) : List PipelineAction := List.replicate 6 (.scheduler (.worker i))

/-- `OnData` schedules a response and notifies; no worker is blocked. -/
def scheduleResponse : List PipelineAction := [.onData, .scheduler (.notifyOne none)]

/-! ### One response -/

/-- `OnData` schedules one response, and a worker sends all of it. -/
def sendOne (response : Bytes) : List PipelineAction :=
  scheduleResponse ++ takeTask 0 ++ [.send 0 true fun _ => .sent response.length]

/-- The worker that holds the response. -/
def oneHeld (fd : ℤ) (maxSendQueueSize : UInt64) (response : Bytes) : Pipeline where
  scheduler :=
    { activeTasks := 1, maxConcurrent := 1, workers := [.running ⟨0, response⟩] }
  conn := .ofFd fd maxSendQueueSize
  calls := []
  scheduled := [⟨0, response⟩]

theorem run_oneHeld (fd : ℤ) (maxSendQueueSize : UInt64) (response : Bytes) :
    machine.run (start 1 1 fd maxSendQueueSize [.sendAsync response])
      (scheduleResponse ++ takeTask 0)
      = some (oneHeld fd maxSendQueueSize response, List.replicate 8 ()) := by
  rfl

/-- The worker that has sent it. -/
def oneSent (fd : ℤ) (maxSendQueueSize : UInt64) (response : Bytes) : Pipeline :=
  (oneHeld fd maxSendQueueSize response).afterSend
    { activeTasks := 1, maxConcurrent := 1, workers := [.count true] } ⟨0, response⟩ true
    fun _ => .sent response.length

theorem run_sendOne (fd : ℤ) (maxSendQueueSize : UInt64) (response : Bytes) :
    machine.run (start 1 1 fd maxSendQueueSize [.sendAsync response]) (sendOne response)
      = some (oneSent fd maxSendQueueSize response, List.replicate 9 ()) :=
  Machine.run_append_eq_some.mpr
    ⟨_, _, [()], run_oneHeld fd maxSendQueueSize response, rfl, rfl⟩

/-- **The whole response is on the wire** and nothing left to be done, where the queue has room. -/
theorem oneSent_done (fd : ℤ) {maxSendQueueSize : UInt64} {response : Bytes}
    (hroom : .ofNat response.length ≤ maxSendQueueSize) :
    (oneSent fd maxSendQueueSize response).wire = response
      ∧ (oneSent fd maxSendQueueSize response).conn.pending = [] :=
  TCPConnection.send_taken rfl rfl rfl hroom

theorem hasRoom_sendOne {fd : ℤ} {maxSendQueueSize : UInt64} {response : Bytes}
    (hroom : .ofNat response.length ≤ maxSendQueueSize) :
    machine.Along HasRoom (start 1 1 fd maxSendQueueSize [.sendAsync response])
      (sendOne response) := by
  refine (Machine.along_append (run_oneHeld fd maxSendQueueSize response)).mpr ⟨?_, ?_⟩
  · -- only the sends ask for room
    iterate 8 refine fun _ _ => ⟨trivial, ?_⟩
    trivial
  · refine fun r _ => ⟨fun task htask => ?_, trivial⟩
    cases htask
    refine Or.inr ⟨?_, rfl⟩
    show (0 : UInt64) + _ ≤ _
    rwa [UInt64.zero_add]

/-! ### Two of them -/

/-- Two workers that hold one response each. -/
def twoHeld : Pipeline where
  scheduler :=
    { activeTasks := 2, maxConcurrent := 2
      workers := [.running ⟨0, [0x41]⟩, .running ⟨1, [0x42]⟩] }
  conn := .ofFd 5 100
  calls := []
  scheduled := [⟨0, [0x41]⟩, ⟨1, [0x42]⟩]

/-- Two workers take one response each, and the second one is sent first. -/
theorem responses_overtaken :
    ¬ machine.Always (InOrder [[0x41], [0x42]])
      (start 2 2 5 100 (onDataCalls [[0x41], [0x42]] false))
      (scheduleResponse ++ scheduleResponse ++ takeTask 0 ++ takeTask 1
        ++ [.send 1 true fun _ => .sent 1]) := by
  intro h
  have hrun : machine.run (start 2 2 5 100 (onDataCalls [[0x41], [0x42]] false))
      (scheduleResponse ++ scheduleResponse ++ takeTask 0 ++ takeTask 1)
        = some (twoHeld, List.replicate 16 ()) := by
    decide +kernel
  have hwf : twoHeld.conn.connectionBuffer.WellFormed := ⟨nofun, nofun, fun _ => rfl⟩
  have hinOrder := (h.of_append hrun).2 _ rfl
  have hroom : twoHeld.conn.connectionBuffer.Accepts [0x42] true := by decide
  have hqueued : (twoHeld.afterSend (twoHeld.scheduler.setWorker 1 (.count true)) ⟨1, [0x42]⟩ true
      fun _ => .sent 1).queued = twoHeld.queued ++ [0x42] := queued_afterSend hwf rfl hroom _ _
  have habsurd : ([0x42] : Bytes) = [0x41] := hqueued.symm.trans hinOrder
  cases habsurd

/-! ## Responses before the end -/

/-- **The invariant of a run that closes the connection last.** -/
structure ClosedLast (s : Pipeline) : Prop extends s.Accounted, s.Carried where
  program : s.calls = [] ∨ ∃ rest, s.calls = onDataCalls rest true
  no_calls : s.conn.state ≠ .connected → s.calls = []
  none_outstanding : s.conn.state ≠ .connected → s.scheduler.pool.outstanding = []
  none_pending : s.conn.state ≠ .connected → s.conn.pending = []

theorem ClosedLast.delivered (h : s.ClosedLast) : s.Delivered where
  queued_eq := h.queued_eq
  all_sent hclosed := by
    have hperm := h.account.perm
    rwa [h.none_outstanding hclosed, List.append_nil] at hperm
  on_wire hclosed := by
    have hqueued : s.wire ++ s.conn.pending = _ := h.queued_eq
    rwa [h.none_pending hclosed, List.append_nil] at hqueued

/-- Behind the `close` there is nothing. -/
theorem ClosedLast.calls_of_close (h : s.ClosedLast) {calls : List ConnCall}
    (hcalls : s.calls = .close :: calls) : calls = [] := by
  rcases h.program with hnil | ⟨rest, hrest⟩
  · rw [hnil] at hcalls
    cases hcalls
  · rw [hrest] at hcalls
    cases rest <;> cases hcalls
    rfl

/-- What is left of the calls when a response has been scheduled. -/
theorem ClosedLast.program_of_sendAsync (h : s.ClosedLast) {data : Bytes}
    {calls : List ConnCall} (hcalls : s.calls = .sendAsync data :: calls) :
    ∃ rest, calls = onDataCalls rest true := by
  rcases h.program with hnil | ⟨rest, hrest⟩
  · rw [hnil] at hcalls
    cases hcalls
  · rw [hrest] at hcalls
    cases rest <;> cases hcalls
    exact ⟨_, rfl⟩

theorem ClosedLast.step {a : PipelineAction} {s' : Pipeline} (h : s.ClosedLast)
    (hlast : s.ClosesLast a) (heffect : s.Effect a s') : s'.ClosedLast := by
  have hcarried := h.toCarried.step hlast.hasRoom heffect
  cases heffect with
  | schedule hcalls hpool =>
    have hopen : ¬ s.conn.state ≠ .connected := fun hclosed => by
      rw [h.no_calls hclosed] at hcalls
      cases hcalls
    exact ⟨h.toAccounted.schedule hpool, hcarried, Or.inr (h.program_of_sendAsync hcalls),
      fun hclosed => absurd hclosed hopen, fun hclosed => absurd hclosed hopen,
      fun hclosed => absurd hclosed hopen⟩
  | close hcalls =>
    cases h.calls_of_close hcalls
    have hout := hlast.out rfl (by rw [hcalls]; rfl)
    -- without a socket `Close` changes nothing, and the connection has been closed before
    have hstate : ¬ 0 ≤ s.conn.socketFd → s.conn.close.state ≠ .connected →
        s.conn.state ≠ .connected := fun hfd hclosed => by
      rwa [TCPConnection.close, if_neg hfd] at hclosed
    refine ⟨⟨h.account, h.numbered⟩, hcarried, Or.inl rfl, fun _ => rfl, fun hclosed => ?_,
      fun hclosed => ?_⟩
    · by_cases hfd : 0 ≤ s.conn.socketFd
      · exact (hout hfd).1
      · exact h.none_outstanding (hstate hfd hclosed)
    · show s.conn.close.connectionBuffer.pending = []
      rw [TCPConnection.connectionBuffer_close]
      by_cases hfd : 0 ≤ s.conn.socketFd
      · exact (hout hfd).2
      · exact h.none_pending (hstate hfd hclosed)
  | idle hpool =>
    refine ⟨h.toAccounted.idle hpool, hcarried, h.program, h.no_calls, fun hclosed => ?_,
      h.none_pending⟩
    rw [hpool]
    exact h.none_outstanding hclosed
  | take hpool =>
    refine ⟨h.toAccounted.take hpool, hcarried, h.program, h.no_calls, fun hclosed => ?_,
      h.none_pending⟩
    have hperm := hpool.outstanding_of_take
    rw [h.none_outstanding hclosed] at hperm
    exact List.perm_nil.mp hperm
  | send hworker hpool =>
    rename_i i alloc io task scheduler
    have hheld := mem_held_of_running hworker
    by_cases hopen : s.conn.state = .connected
    · have hstill := (TCPConnection.state_send s.conn task.data alloc io).trans hopen
      exact ⟨h.toAccounted.send hpool hopen alloc io, hcarried, h.program,
        fun hclosed => absurd hstill hclosed, fun hclosed => absurd hstill hclosed,
        fun hclosed => absurd hstill hclosed⟩
    · have hmem : task ∈ s.scheduler.pool.outstanding := List.mem_append_left _ hheld
      rw [h.none_outstanding hopen] at hmem
      cases hmem

/-- Closing the connection before the responses are out loses one, and so does sending one
that there is no room for. -/
theorem ClosedLast.not_delivered (h : s.ClosedLast) {a : PipelineAction} {s' : Pipeline}
    (hlast : ¬ s.ClosesLast a) (heffect : s.Effect a s') : ¬ s'.Delivered := by
  intro hdelivered
  cases heffect with
  | schedule hcalls hpool =>
    refine hlast ⟨fun _ => trivial, fun _ hhead => ?_⟩
    rw [hcalls] at hhead
    cases hhead
  | close hcalls =>
    refine hlast ⟨fun _ => trivial, fun _ _ hfd => ?_⟩
    have hclosed : s.conn.close.state ≠ .connected := by
      rw [TCPConnection.close, if_pos hfd]
      exact nofun
    have hsent : s.sent.Perm s.scheduled := hdelivered.all_sent hclosed
    have hwire : s.wire = (s.sent.map SendTask.data).flatten := hdelivered.on_wire hclosed
    refine ⟨List.eq_nil_iff_forall_not_mem.mpr fun task htask => ?_, ?_⟩
    · have hscheduled := h.account.perm.mem_iff.mp (List.mem_append_right s.sent htask)
      exact h.notMem_sent htask (hsent.mem_iff.mpr hscheduled)
    · have hqueued : s.wire ++ s.conn.pending = _ := h.queued_eq
      exact List.append_right_eq_self.mp (hqueued.trans hwire.symm)
  | idle hpool => exact hlast ⟨fun _ => trivial, nofun⟩
  | take hpool => exact hlast ⟨fun _ => trivial, nofun⟩
  | send hworker hpool =>
    rename_i i alloc io task scheduler
    refine hlast ⟨fun hopen task' hworker' => ?_, nofun⟩
    cases hworker.symm.trans hworker'
    by_contra hroom
    have hsent : (s.afterSend scheduler task alloc io).sent = s.sent ++ [task] := if_pos hopen
    have hqueued := hdelivered.queued_eq
    rw [queued_afterSend_of_not_accepts h.wellFormed hopen hroom, hsent, h.queued_eq,
      List.map_append, List.flatten_append] at hqueued
    have hnil := List.append_right_eq_self.mp hqueued.symm
    rw [List.map_singleton, List.flatten_singleton] at hnil
    exact hroom (Or.inl hnil)

theorem start_closedLast (workers maxConcurrent : ℕ) (fd : ℤ) (maxSendQueueSize : UInt64)
    (responses : List Bytes) :
    ClosedLast (start workers maxConcurrent fd maxSendQueueSize (onDataCalls responses true)) where
  toAccounted := start_accounted _ _ _ _ _
  toCarried := start_carried _ _ _ _ _
  program := Or.inr ⟨responses, rfl⟩
  no_calls := fun hclosed => absurd rfl hclosed
  none_outstanding := fun hclosed => absurd rfl hclosed
  none_pending := fun _ => rfl

/-- **When the server's own `Close` loses no response.** On a connection that is closed
behind the last response, with any responses, number of workers and limits: in a run all that
was scheduled is on the wire once the connection is closed, and nothing was dropped before,
exactly if the connection has room for each response that is sent while it is open, and
`Close` is called when no response is queued or in the hands of a worker and the send queue
is empty. -/
theorem close_loses_none_iff (workers maxConcurrent : ℕ) (fd : ℤ) (maxSendQueueSize : UInt64)
    (responses : List Bytes) (actions : List PipelineAction) :
    let s := start workers maxConcurrent fd maxSendQueueSize (onDataCalls responses true)
    machine.Always Delivered s actions ↔ machine.Along ClosesLast s actions :=
  Machine.always_iff_along (I := ClosedLast) (fun _ h => h.delivered)
    (fun _ _ _ h hc hr => h.step hc (effect_of_step hr))
    (fun _ _ _ h hc hr => h.not_delivered hc (effect_of_step hr))
    (start_closedLast workers maxConcurrent fd maxSendQueueSize responses)

/-- The response is scheduled and the connection closed before a worker takes it. -/
theorem response_lost :
    ¬ machine.Always Delivered (start 1 1 5 100 (onDataCalls [[0x41]] true))
      (scheduleResponse ++ [.onData] ++ takeTask 0 ++ [.send 0 true fun _ => .sent 1]) := by
  intro h
  have hrun : (machine.run (start 1 1 5 100 (onDataCalls [[0x41]] true))
      (scheduleResponse ++ [.onData] ++ takeTask 0 ++ [.send 0 true fun _ => .sent 1])).map
        (fun r => (r.1.conn.state, r.1.scheduled, r.1.sent))
        = some (.closing, [⟨0, [0x41]⟩], []) := by
    decide +kernel
  obtain ⟨r, hr, he⟩ := Option.map_eq_some_iff.mp hrun
  have hdelivered := h.of_run hr
  simp only [Prod.mk.injEq] at he
  obtain ⟨hstate, hscheduled, hsent⟩ := he
  have hperm := hdelivered.all_sent (by rw [hstate]; exact nofun)
  rw [hscheduled, hsent] at hperm
  cases hperm.length_eq

end Pipeline
