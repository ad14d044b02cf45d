import HttpServer.Cpp
import HttpServer.SchedulerTasks
import Mathlib.Logic.Function.Basic

/-!
# Sending a batch

`ConnectionOperations::SendBatchAsync` of `core/Async/async_utils.cpp`, with the scheduler it uses.
A call schedules a task for each of its strings and then one that gathers their results: it calls
`get` on one future after the other, on the worker that executes it. Any number of threads may be
in calls of their own, so that the tasks of different batches are mixed in the queue.

A task that gathers keeps its worker while it waits, and there may be one worker only; what comes
of that is in `HttpServer.BatchResults`. Here are the steps, and what each of them does to the
tasks, the calls and the futures (`BatchSystem.Effect`).

`Stop` ends with emptying the queue, where tasks may be that were scheduled when the workers had
left. A `std::packaged_task` that is destroyed breaks the promise behind its future, and the task
that gathers passes the exception on, if it is executed at all: the scheduler may be started again
in between. `Start` and `Stop` are called one after the other, and the rest of `Stop`, from the
join on, is one step.
-/

/-- The task for one string of a batch. Its future is known by it. -/
structure BatchSend where
  batch : ℕ
  index : ℕ
  data : Bytes
  deriving DecidableEq

/-- The tasks of a batch. -/
inductive BatchTask
  | send (task : BatchSend)
  /-- The last one, with the futures of the others. -/
  | gather (batch : ℕ) (futures : List BatchSend)
  deriving DecidableEq

/-- The call that the task belongs to. -/
def BatchTask.batch : BatchTask → ℕ
  | .send task => task.batch
  | .gather batch _ => batch

/-- What a future holds when it is ready. -/
inductive Settled (α : Type*)
  | value (a : α)
  /-- `std::future_error`: the task was destroyed before it was executed, or `get` has thrown in
  it. -/
  | brokenPromise
  deriving DecidableEq

/-- A call of `SendBatchAsync`, in its loop or behind it. -/
structure BatchCall where
  dataList : List Bytes
  futures : List BatchSend := []
  /-- The task that gathers is scheduled, and the call returns its future. -/
  returned : Bool := false

/-- **The calls and the scheduler.** `futures` and `results` are what the futures hold of the tasks
for one string and of those that gather. The tasks that were scheduled, those that were executed
and those that `Stop` took out of the queue are kept for the account. -/
structure BatchSystem where
  scheduler : ThreadPoolScheduler BatchTask
  workerThreads : ℕ
  calls : List BatchCall := []
  futures : BatchSend → Option (Settled ℕ) := fun _ => none
  results : ℕ → Option (Settled (List ℕ)) := fun _ => none
  scheduled : List BatchTask := []
  executed : List BatchTask := []
  dropped : List BatchTask := []

/-- A step of one of the threads. -/
inductive BatchAction
  /-- A thread calls `SendBatchAsync`. -/
  | sendBatchAsync (dataList : List Bytes)
  /-- A call schedules its next task. -/
  | schedule (batch : ℕ)
  /-- A step of the scheduler that neither schedules nor executes a task. -/
  | scheduler (a : SchedulerAction BatchTask)
  /-- A worker executes its task to the end. -/
  | execute (i : ℕ)
  /-- `Stop` from where it joins the workers. -/
  | stopped
  /-- `Start`, again. -/
  | startAgain
  | setThreadPoolSize (size : ℕ)

/-! ## The source -/

namespace BatchCall

/-- The next task of a call: for the next string, or behind the loop. -/
def nextTask (call : BatchCall) (batch : ℕ) : Option BatchTask :=
  match call.dataList[call.futures.length]? with
  | some data => some (.send ⟨batch, call.futures.length, data⟩)
  | none => if call.returned then none else some (.gather batch call.futures)

/-- The call has scheduled a task. -/
def advance (call : BatchCall) : BatchTask → BatchCall
  | .send task => { call with futures := call.futures ++ [task] }
  | .gather _ _ => { call with returned := true }

theorem mem_futures_advance {call : BatchCall} {task : BatchTask} {task' : BatchSend} :
    task' ∈ (call.advance task).futures ↔ task' ∈ call.futures ∨ task = .send task' := by
  cases task with
  | send task => simp [advance, eq_comm]
  | gather batch futures => simp [advance]

/-- **A call in itself**: its futures are those of its first strings, and it returns behind the
last one. -/
structure Regular (batch : ℕ) (call : BatchCall) : Prop where
  futures_eq : call.futures.map BatchSend.data = call.dataList.take call.futures.length
  numbered : ∀ task ∈ call.futures, task.batch = batch ∧ task.index < call.futures.length
  returned : call.returned = true → call.dataList.length ≤ call.futures.length

namespace Regular

variable {batch : ℕ} {call : BatchCall}

theorem new (batch : ℕ) (dataList : List Bytes) : Regular batch { dataList } where
  futures_eq := rfl
  numbered _ h := by cases h
  returned h := by cases h

/-- The task for the next string. -/
theorem nextTask_send (h : call.Regular batch) {task : BatchSend}
    (hnext : call.nextTask batch = some (.send task)) :
    task.batch = batch ∧ task.index = call.futures.length
      ∧ call.dataList[call.futures.length]? = some task.data ∧ call.returned = false := by
  unfold nextTask at hnext
  split at hnext
  · rename_i data hdata
    cases hnext
    refine ⟨rfl, rfl, hdata, Bool.eq_false_iff.mpr fun hreturned => ?_⟩
    exact absurd (List.getElem?_eq_some_iff.mp hdata).1 (Nat.not_lt.mpr (h.returned hreturned))
  · split at hnext <;> cases hnext

/-- The task behind the loop. -/
theorem nextTask_gather {batch' : ℕ} {futures : List BatchSend}
    (hnext : call.nextTask batch = some (.gather batch' futures)) :
    batch' = batch ∧ futures = call.futures ∧ call.returned = false
      ∧ call.dataList.length ≤ call.futures.length := by
  unfold nextTask at hnext
  split at hnext
  · cases hnext
  · rename_i hnone
    obtain ⟨hreturned, h⟩ := Option.ite_none_left_eq_some.mp hnext
    cases h
    exact ⟨rfl, rfl, Bool.eq_false_iff.mpr hreturned, List.getElem?_eq_none_iff.mp hnone⟩

/-- A call that has a next task has not returned. -/
theorem not_returned (h : call.Regular batch) {task : BatchTask}
    (hnext : call.nextTask batch = some task) : call.returned = false := by
  cases task with
  | send task =>
    obtain ⟨-, -, -, hreturned⟩ := h.nextTask_send hnext
    exact hreturned
  | gather batch' futures =>
    obtain ⟨-, -, hreturned, -⟩ := nextTask_gather hnext
    exact hreturned

theorem advance (h : call.Regular batch) {task : BatchTask}
    (hnext : call.nextTask batch = some task) : (call.advance task).Regular batch := by
  cases task with
  | send task =>
    obtain ⟨hbatch, hindex, hdata, hreturned⟩ := h.nextTask_send hnext
    have hlength : (call.futures ++ [task]).length = call.futures.length + 1 := by simp
    refine ⟨?_, fun task' hmem => ?_, fun hr => ?_⟩
    · show (call.futures ++ [task]).map BatchSend.data
        = call.dataList.take (call.futures ++ [task]).length
      rw [hlength, List.map_append, h.futures_eq, List.take_add_one, hdata]
      rfl
    · show task'.batch = batch ∧ task'.index < (call.futures ++ [task]).length
      rw [hlength]
      obtain hold | hnew := List.mem_append.mp hmem
      · exact ⟨(h.numbered task' hold).1, Nat.lt_succ_of_lt (h.numbered task' hold).2⟩
      · rw [List.mem_singleton.mp hnew]
        exact ⟨hbatch, by omega⟩
    · exact absurd (hr : call.returned = true) (Bool.eq_false_iff.mp hreturned)
  | gather batch' futures =>
    obtain ⟨-, -, -, hlength⟩ := nextTask_gather hnext
    exact ⟨h.futures_eq, h.numbered, fun _ => hlength⟩

/-- Behind the last string the futures are those of all strings. -/
theorem sizes_eq (h : call.Regular batch) (hreturned : call.returned = true) :
    (call.futures.map fun task => task.data.length) = call.dataList.map List.length := by
  have hfutures := h.futures_eq
  rw [List.take_of_length_le (h.returned hreturned)] at hfutures
  rw [← hfutures, List.map_map]
  rfl

end Regular

end BatchCall

namespace BatchSystem

variable (s : BatchSystem)

/-- The loop of the task that gathers, `none` while it waits: `get` on one future after the
other. -/
def getAll : List BatchSend → Option (Settled (List ℕ))
  | [] => some (.value [])
  | task :: futures =>
    match s.futures task with
    | none => none
    | some .brokenPromise => some .brokenPromise
    | some (.value size) =>
      match getAll futures with
      | some (.value sizes) => some (.value (size :: sizes))
      | rest => rest

/-- What a task does, `none` while it waits: to send is to return the length. -/
def perform : BatchTask → Option BatchSystem
  | .send task =>
    some { s with futures := Function.update s.futures task (some (.value task.data.length)) }
  | .gather batch futures =>
    (s.getAll futures).map fun result =>
      { s with results := Function.update s.results batch (some result) }

/-- The task is destroyed. -/
def breakPromise : BatchTask → BatchSystem
  | .send task =>
    { s with futures := Function.update s.futures task (some .brokenPromise) }
  | .gather batch _ =>
    { s with results := Function.update s.results batch (some .brokenPromise) }

/-- `tasks_.pop` in `Stop`, and the other tasks stay. -/
def popTask (task : BatchTask) (tasks : List BatchTask) : BatchSystem :=
  { s.breakPromise task with
    scheduler := { s.scheduler with tasks }
    dropped := s.dropped ++ [task] }

/-- `while (!tasks_.empty()) tasks_.pop()`. -/
def clearTasks : List BatchTask → BatchSystem → BatchSystem
  | [], s => s
  | task :: tasks, s => clearTasks tasks (s.popTask task tasks)

/-- The scheduler without its workers, and with its statistics reset. -/
def joined : ThreadPoolScheduler BatchTask :=
  { s.scheduler with workers := [], activeTasks := 0, completedTasks := 0, failedTasks := 0 }

/-- `Stop` from where it joins the workers, which waits until all have left their loops. -/
def stopped : Option BatchSystem :=
  if s.scheduler.stop = true ∧ ∀ w ∈ s.scheduler.workers, w = .exited then
    some (clearTasks s.joined.tasks { s with scheduler := s.joined })
  else none

/-- More threads in `workerLoop`. -/
def addWorkers (n : ℕ) : ThreadPoolScheduler BatchTask :=
  { s.scheduler with workers := s.scheduler.workers ++ List.replicate n Worker.lock }

/-- `Start`, which returns at once if there are workers. -/
def startAgain : BatchSystem :=
  if s.scheduler.workers = [] then
    { s with scheduler := { s.addWorkers s.workerThreads with stop := false, paused := false } }
  else s

def setThreadPoolSize (kind : SchedulerKind) (size : ℕ) : BatchSystem :=
  if size = s.workerThreads then s
  else if s.workerThreads < size then
    { s with scheduler := s.addWorkers (size - s.workerThreads), workerThreads := size }
  else
    match kind with
    | .createDefault => s
    | .createScheduler => { s with workerThreads := size }

/-- A call schedules its next task. -/
def schedule (kind : SchedulerKind) (batch : ℕ) : Option BatchSystem :=
  s.calls[batch]?.bind fun call =>
    (call.nextTask batch).bind fun task =>
      (s.scheduler.stepOf kind (.scheduleTask task)).map fun scheduler =>
        { s with
          scheduler
          calls := s.calls.set batch (call.advance task)
          scheduled := s.scheduled ++ [task] }

/-- A worker executes its task. -/
def execute (kind : SchedulerKind) (i : ℕ) : Option BatchSystem :=
  match s.scheduler.workers[i]? with
  | some (.running task) =>
    (s.perform task).bind fun s' =>
      (s.scheduler.stepOf kind (.execute i true)).map fun scheduler =>
        { s' with scheduler, executed := s.executed ++ [task] }
  | _ => none

/-- One step of one of the threads. -/
def step (kind : SchedulerKind) : BatchAction → Option BatchSystem
  | .sendBatchAsync dataList => some { s with calls := s.calls ++ [{ dataList }] }
  | .schedule batch => s.schedule kind batch
  | .scheduler a =>
    if a.onTask then none
    else (s.scheduler.stepOf kind a).map fun scheduler => { s with scheduler }
  | .execute i => s.execute kind i
  | .stopped => s.stopped
  | .startAgain => some s.startAgain
  | .setThreadPoolSize size => some (s.setThreadPoolSize kind size)

/-- The system as a machine; its steps have no results. -/
def machine (kind : SchedulerKind) : Machine BatchSystem BatchAction Unit where
  step s a := (s.step kind a).map fun s => (s, ())

/-- A scheduler that has been started, before any call. -/
def start (workers maxConcurrent : ℕ) : BatchSystem where
  scheduler := .started workers maxConcurrent
  workerThreads := workers

/-! ## What a step does -/

variable {s}

/-- **What a step does** to the tasks, the calls and the futures. -/
inductive Effect (s : BatchSystem) : BatchSystem → Prop
  | call (dataList : List Bytes) : Effect s { s with calls := s.calls ++ [{ dataList }] }
  | schedule {batch : ℕ} {call : BatchCall} {task : BatchTask}
      {scheduler : ThreadPoolScheduler BatchTask} (hcall : s.calls[batch]? = some call)
      (hnext : call.nextTask batch = some task)
      (hpool : WorkPool.Step s.scheduler.pool (.put task) scheduler.pool) :
      Effect s
        { s with
          scheduler
          calls := s.calls.set batch (call.advance task)
          scheduled := s.scheduled ++ [task] }
  | idle {scheduler : ThreadPoolScheduler BatchTask} {workerThreads : ℕ}
      (hqueue : scheduler.pool.queue = s.scheduler.pool.queue)
      (hheld : scheduler.pool.held = s.scheduler.pool.held) :
      Effect s { s with scheduler, workerThreads }
  | take {i : ℕ} {scheduler : ThreadPoolScheduler BatchTask}
      (hpool : WorkPool.Step s.scheduler.pool (.take i) scheduler.pool) :
      Effect s { s with scheduler }
  | execute {i : ℕ} {task : BatchTask} {s₁ : BatchSystem}
      {scheduler : ThreadPoolScheduler BatchTask} (hperform : s.perform task = some s₁)
      (hpool : WorkPool.Step s.scheduler.pool (.finish i task) scheduler.pool) :
      Effect s { s₁ with scheduler, executed := s.executed ++ [task] }
  | clear {scheduler : ThreadPoolScheduler BatchTask}
      (hqueue : scheduler.pool.queue = s.scheduler.pool.queue)
      (hheld : scheduler.pool.held = s.scheduler.pool.held) :
      Effect s (clearTasks scheduler.tasks { s with scheduler })

/-- The class of the scheduler makes no difference to what happens to a task. -/
theorem pool_of_stepOf {kind : SchedulerKind} {τ : Type*} {s s' : ThreadPoolScheduler τ}
    {a : SchedulerAction τ} (h : s.stepOf kind a = some s') :
    WorkPool.Step s.pool (s.moveOf a) s'.pool := by
  rcases ThreadPoolScheduler.stepOf_cases h with hstep | ⟨max, rfl, rfl⟩
  · exact ThreadPoolScheduler.step_pool hstep
  · exact .rest _

/-- Threads that have just been started have nothing in their hands. -/
theorem held_addWorkers (n : ℕ) : (s.addWorkers n).pool.held = s.scheduler.pool.held := by
  show ((s.scheduler.workers ++ List.replicate n Worker.lock).map Worker.task).reduceOption = _
  rw [List.map_append, List.map_replicate, List.reduceOption_append]
  refine (congrArg _ List.reduceOption_replicate_none).trans ?_
  rw [List.append_nil]
  rfl

theorem effect_startAgain : s.Effect s.startAgain := by
  unfold startAgain
  split
  · exact .idle rfl (held_addWorkers s.workerThreads)
  · exact .idle rfl rfl

theorem effect_setThreadPoolSize (kind : SchedulerKind) (size : ℕ) :
    s.Effect (s.setThreadPoolSize kind size) := by
  unfold setThreadPoolSize
  split
  · exact .idle rfl rfl
  · split
    · exact .idle rfl (held_addWorkers _)
    · cases kind with
      | createDefault => exact .idle rfl rfl
      | createScheduler => exact .idle rfl rfl

/-- The workers that `Stop` has joined have nothing in their hands. -/
theorem effect_stopped {s' : BatchSystem} (h : s.stopped = some s') : s.Effect s' := by
  obtain ⟨⟨-, hexited⟩, h⟩ := Option.ite_none_right_eq_some.mp h
  cases h
  have hheld : s.scheduler.pool.held = [] := (ThreadPoolScheduler.held_of_exited hexited).1
  exact .clear rfl hheld.symm

theorem effect_of_step {kind : SchedulerKind} {a : BatchAction} {s' : BatchSystem}
    (h : s.step kind a = some s') : s.Effect s' := by
  cases a with
  | sendBatchAsync dataList =>
    cases h
    exact .call dataList
  | schedule batch =>
    obtain ⟨call, hcall, h⟩ := Option.bind_eq_some_iff.mp h
    obtain ⟨task, hnext, h⟩ := Option.bind_eq_some_iff.mp h
    obtain ⟨scheduler, hs, rfl⟩ := Option.map_eq_some_iff.mp h
    exact .schedule hcall hnext (pool_of_stepOf hs)
  | scheduler a =>
    obtain ⟨hon, h⟩ := Option.ite_none_left_eq_some.mp h
    obtain ⟨scheduler, hs, rfl⟩ := Option.map_eq_some_iff.mp h
    have hpool := pool_of_stepOf hs
    obtain hmove | ⟨i, hmove⟩ := ThreadPoolScheduler.moveOf_eq (Bool.eq_false_iff.mpr hon)
    · rw [hmove] at hpool
      have heq : scheduler.pool = s.scheduler.pool := hpool.eq_of_rest
      exact .idle (congrArg WorkPool.queue heq) (congrArg WorkPool.held heq)
    · rw [hmove] at hpool
      exact .take hpool
  | execute i =>
    have h : s.execute kind i = some s' := h
    unfold execute at h
    split at h
    · rename_i task hw
      obtain ⟨s₁, hperform, h⟩ := Option.bind_eq_some_iff.mp h
      obtain ⟨scheduler, hs, rfl⟩ := Option.map_eq_some_iff.mp h
      have hpool := pool_of_stepOf hs
      rw [ThreadPoolScheduler.moveOf, hw] at hpool
      exact .execute hperform hpool
    · cases h
  | stopped => exact effect_stopped h
  | startAgain =>
    cases h
    exact effect_startAgain
  | setThreadPoolSize size =>
    cases h
    exact effect_setThreadPoolSize kind size

theorem machine_step {kind : SchedulerKind} {a : BatchAction} {r : BatchSystem × Unit}
    (h : (machine kind).step s a = some r) : s.step kind a = some r.1 := by
  obtain ⟨s', hs, rfl⟩ := Option.map_eq_some_iff.mp h
  exact hs

end BatchSystem
