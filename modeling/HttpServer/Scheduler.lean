import HttpServer.Machine
import HttpServer.Threads
import HttpServer.WorkPool

/-!
# The thread pool

`ThreadPoolScheduler` of `core/Async/async_scheduler.cpp`, as the interleaving of its
workers with the threads that call it. `queue_mutex_` is a flag, and what runs under it
between two accesses to an atomic is one step. A worker that finds the wait predicate false
blocks in a second step, which is when it lets go of the mutex; `Pause`, `Resume` and
`SetMaxConcurrent` do not take the mutex and may fall in between. A call that changes the
state first and notifies afterwards is two steps: `notifyOnes` and `notifyAlls` count the
calls that are at their second one.

`Start` has been called once (`started`), and `Stop` is followed up to where it joins the
workers. A task is a value of any type. What it does is left to the system that the
scheduler is part of: `execute` is the moment a task returns or throws.

Of what happens to tasks nothing else matters but `WorkPool`: each step of the scheduler
is a step of that pool (`step_pool`).
-/

/-- The two classes named `ThreadPoolScheduler`. -/
inductive SchedulerKind
  /-- That of `async_scheduler.cpp`, from `IScheduler::CreateDefault`. -/
  | createDefault
  /-- That of `async_scheduler_impl.cpp`, from `Factory::CreateScheduler`. -/
  | createScheduler
  deriving DecidableEq

/-- Where a worker is in `workerLoop`. -/
inductive Worker (τ : Type*)
  /-- About to lock the mutex: at the top of the loop, or notified. -/
  | lock
  /-- About to evaluate the wait predicate. -/
  | check
  /-- The predicate was false: about to block. -/
  | block
  /-- Blocked, without the mutex. -/
  | blocked
  /-- At `stop_ && tasks_.empty()`. -/
  | testStop
  /-- At `paused_ || tasks_.empty()`. -/
  | testPaused
  /-- At the second look at the concurrency limit. -/
  | testLimit
  /-- About to take the first task. -/
  | pop
  /-- Executing a task, without the mutex. -/
  | running (t : τ)
  /-- About to count the task as completed or failed. -/
  | count (completed : Bool)
  /-- At `--active_tasks_`. -/
  | release
  /-- At the `notify_one` behind it. -/
  | notify
  /-- Out of the loop. -/
  | exited
  deriving DecidableEq

/-- The task in a worker's hands. -/
def Worker.task {τ : Type*} : Worker τ → Option τ
  | .running t => some t
  | _ => none

def Worker.isBlocked {τ : Type*} : Worker τ → Bool
  | .blocked => true
  | _ => false

/-- What `notify_all` does to a worker. -/
def Worker.wake {τ : Type*} : Worker τ → Worker τ
  | .blocked => .lock
  | w => w

@[simp] theorem Worker.task_wake {τ : Type*} (w : Worker τ) : w.wake.task = w.task := by
  cases w <;> rfl

/-- `ThreadPoolScheduler`, with the callers that have still to notify. -/
structure ThreadPoolScheduler (τ : Type*) where
  tasks : List τ := []
  /-- `queue_mutex_` is held by a worker. -/
  locked : Bool := false
  stop : Bool := false
  paused : Bool := false
  activeTasks : ℕ := 0
  completedTasks : ℕ := 0
  failedTasks : ℕ := 0
  maxConcurrent : ℕ
  workers : List (Worker τ)
  notifyOnes : ℕ := 0
  notifyAlls : ℕ := 0
  deriving DecidableEq

/-- What a thread does next. -/
inductive SchedulerAction (τ : Type*)
  /-- `ScheduleTask` up to its notification; `ScheduleBatch` is one for each task. -/
  | scheduleTask (t : τ)
  | pause
  /-- `Resume` up to its notification. -/
  | resume
  /-- The critical section of `Stop`, with the notification in it. -/
  | stop
  | setMaxConcurrent (max : ℕ)
  /-- The `notify_one` of a caller, which wakes this worker. -/
  | notifyOne (woken : Option ℕ)
  /-- The `notify_all` of a caller. -/
  | notifyAll
  /-- The next step of this worker, unless it is one of the two below. -/
  | worker (i : ℕ)
  /-- The task of this worker returns or throws. -/
  | execute (i : ℕ) (returns : Bool)
  /-- The `notify_one` of a worker. -/
  | workerNotify (i : ℕ) (woken : Option ℕ)
  /-- This worker wakes up without having been notified. -/
  | spuriousWakeup (i : ℕ)
  deriving DecidableEq

/-- It is the caller that schedules a task or the task itself that acts. -/
def SchedulerAction.onTask {τ : Type*} : SchedulerAction τ → Bool
  | .scheduleTask _ => true
  | .execute _ _ => true
  | _ => false

namespace ThreadPoolScheduler

variable {τ : Type*} (s : ThreadPoolScheduler τ)

/-! ## The source -/

/-- A scheduler with this number of workers and this limit, after `Start`. -/
def started (workers maxConcurrent : ℕ) : ThreadPoolScheduler τ :=
  { maxConcurrent, workers := List.replicate workers .lock }

def setWorker (i : ℕ) (w : Worker τ) : ThreadPoolScheduler τ :=
  { s with workers := s.workers.set i w }

/-- The predicate of `task_cv_.wait`. -/
def waitPredicate : Bool :=
  s.stop || (!s.tasks.isEmpty && !s.paused
    && (s.maxConcurrent == 0 || decide (s.activeTasks < s.maxConcurrent)))

/-- `notify_one`: one of the blocked workers wakes up, if there is any. -/
def wakeOne (woken : Option ℕ) : Option (ThreadPoolScheduler τ) :=
  match woken with
  | none => if s.workers.any Worker.isBlocked then none else some s
  | some j =>
    match s.workers[j]? with
    | some .blocked => some (s.setWorker j .lock)
    | _ => none

/-- One step of `workerLoop`. -/
def workerLoop (i : ℕ) : Option (ThreadPoolScheduler τ) :=
  match s.workers[i]? with
  | some .lock => if s.locked then none else some { s.setWorker i .check with locked := true }
  | some .check => some (s.setWorker i (if s.waitPredicate then .testStop else .block))
  | some .block => some { s.setWorker i .blocked with locked := false }
  | some .testStop =>
    if s.stop && s.tasks.isEmpty then some { s.setWorker i .exited with locked := false }
    else some (s.setWorker i .testPaused)
  | some .testPaused =>
    if s.paused || s.tasks.isEmpty then some { s.setWorker i .lock with locked := false }
    else some (s.setWorker i .testLimit)
  | some .testLimit =>
    if 0 < s.maxConcurrent && s.maxConcurrent ≤ s.activeTasks then
      some { s.setWorker i .lock with locked := false }
    else some (s.setWorker i .pop)
  | some .pop =>
    match s.tasks with
    | [] => none
    | t :: tasks =>
      some { s.setWorker i (.running t) with
        tasks, activeTasks := s.activeTasks + 1, locked := false }
  | some (.count true) =>
    some { s.setWorker i .release with completedTasks := s.completedTasks + 1 }
  | some (.count false) => some { s.setWorker i .release with failedTasks := s.failedTasks + 1 }
  | some .release => some { s.setWorker i .notify with activeTasks := s.activeTasks - 1 }
  | _ => none

/-- One step of one of the threads. -/
def step : SchedulerAction τ → Option (ThreadPoolScheduler τ)
  | .scheduleTask t =>
    if s.locked then none
    else some { s with tasks := s.tasks ++ [t], notifyOnes := s.notifyOnes + 1 }
  | .pause => some { s with paused := true }
  | .resume => some { s with paused := false, notifyAlls := s.notifyAlls + 1 }
  | .stop =>
    if s.locked then none
    else some { s with stop := true, paused := false, workers := s.workers.map Worker.wake }
  | .setMaxConcurrent max => some { s with maxConcurrent := max }
  | .notifyOne woken =>
    if s.notifyOnes = 0 then none
    else (s.wakeOne woken).map fun s => { s with notifyOnes := s.notifyOnes - 1 }
  | .notifyAll =>
    if s.notifyAlls = 0 then none
    else some { s with
      notifyAlls := s.notifyAlls - 1, workers := s.workers.map Worker.wake }
  | .worker i => s.workerLoop i
  | .execute i returns =>
    match s.workers[i]? with
    | some (.running _) => some (s.setWorker i (.count returns))
    | _ => none
  | .workerNotify i woken =>
    match s.workers[i]? with
    | some .notify => (s.setWorker i .lock).wakeOne woken
    | _ => none
  | .spuriousWakeup i =>
    match s.workers[i]? with
    | some .blocked => some (s.setWorker i .lock)
    | _ => none

/-! ## The pool behind it -/

/-- What the scheduler is for. -/
def pool : WorkPool τ := ⟨s.tasks, s.workers.map Worker.task⟩

/-- What happens to tasks in a step. -/
def moveOf : SchedulerAction τ → WorkPool.Move τ
  | .scheduleTask t => .put t
  | .worker i =>
    match s.workers[i]? with
    | some .pop => .take i
    | _ => .rest
  | .execute i _ =>
    match s.workers[i]? with
    | some (.running t) => .finish i t
    | _ => .rest
  | _ => .rest

variable {s}

theorem hands_getElem? {i : ℕ} {w : Worker τ} (h : s.workers[i]? = some w) :
    s.pool.hands[i]? = some w.task := by
  show (s.workers.map Worker.task)[i]? = some w.task
  rw [List.getElem?_map, h]
  rfl

/-- The hands of the workers when one of them goes on. -/
theorem hands_setWorker (i : ℕ) (w : Worker τ) :
    (s.setWorker i w).workers.map Worker.task = s.pool.hands.set i w.task :=
  List.map_set

/-- A worker goes on with the same in its hands. -/
theorem hands_setWorker_of_task {i : ℕ} {w w' : Worker τ} (h : s.workers[i]? = some w)
    (ht : w'.task = w.task) : (s.setWorker i w').workers.map Worker.task = s.pool.hands :=
  Threads.map_set_of_eq Worker.task h ht

theorem hands_wake : (s.workers.map Worker.wake).map Worker.task = s.pool.hands := by
  rw [List.map_map]
  exact List.map_congr_left fun w _ => w.task_wake

/-- Waking a worker does nothing to tasks. -/
theorem wakeOne_pool {woken : Option ℕ} {s' : ThreadPoolScheduler τ}
    (h : s.wakeOne woken = some s') : s'.pool = s.pool := by
  unfold wakeOne at h
  split at h
  · split at h <;> cases h
    rfl
  · split at h <;> cases h
    rename_i hj
    exact congrArg (WorkPool.mk s.tasks) (hands_setWorker_of_task hj rfl)

theorem step_of_pool_eq {s' : ThreadPoolScheduler τ} (h : s'.pool = s.pool) :
    WorkPool.Step s.pool .rest s'.pool := by
  rw [h]
  exact .rest _

/-- A worker whose next step is not on a task does nothing to tasks. -/
theorem step_of_worker {i : ℕ} {w w' : Worker τ} (hw : s.workers[i]? = some w)
    {s' : ThreadPoolScheduler τ} (htasks : s'.tasks = s.tasks)
    (hworkers : s'.workers = s.workers.set i w') (ht : w'.task = w.task) :
    WorkPool.Step s.pool .rest s'.pool := by
  refine step_of_pool_eq ?_
  rw [pool, htasks, hworkers]
  exact congrArg (WorkPool.mk s.tasks) (hands_setWorker_of_task hw ht)

/-- One step of the loop of a worker takes a task or does nothing to tasks. -/
theorem workerLoop_pool {i : ℕ} {s' : ThreadPoolScheduler τ} (h : s.workerLoop i = some s') :
    WorkPool.Step s.pool (s.moveOf (.worker i)) s'.pool := by
  cases hw : s.workers[i]? with
  | none =>
    rw [workerLoop, hw] at h
    cases h
  | some w =>
    rw [workerLoop, hw] at h
    rw [moveOf, hw]
    cases w with
    | lock =>
      dsimp only at h
      split at h <;> cases h
      exact step_of_worker hw rfl rfl rfl
    | check =>
      cases h
      exact step_of_worker hw rfl rfl (by split <;> rfl)
    | block =>
      cases h
      exact step_of_worker hw rfl rfl rfl
    | testStop =>
      dsimp only at h
      split at h <;> cases h <;> exact step_of_worker hw rfl rfl rfl
    | testPaused =>
      dsimp only at h
      split at h <;> cases h <;> exact step_of_worker hw rfl rfl rfl
    | testLimit =>
      dsimp only at h
      split at h <;> cases h <;> exact step_of_worker hw rfl rfl rfl
    | pop =>
      dsimp only at h
      split at h <;> cases h
      rename_i t tasks htasks
      have hstep : WorkPool.Step ⟨t :: tasks, s.pool.hands⟩ (.take i)
          ⟨tasks, s.pool.hands.set i (some t)⟩ := .take (hands_getElem? hw)
      rw [pool, htasks]
      show WorkPool.Step _ _ ⟨tasks, (s.setWorker i (.running t)).workers.map Worker.task⟩
      rw [hands_setWorker]
      exact hstep
    | count completed =>
      cases completed <;> cases h <;> exact step_of_worker hw rfl rfl rfl
    | release =>
      cases h
      exact step_of_worker hw rfl rfl rfl
    | blocked => cases h
    | running t => cases h
    | notify => cases h
    | exited => cases h

/-- The steps of the threads, each with what it waits for and where it leads. -/
inductive StepCase (s : ThreadPoolScheduler τ) :
    SchedulerAction τ → ThreadPoolScheduler τ → Prop
  | scheduleTask (t : τ) (hfree : s.locked = false) :
    StepCase s (.scheduleTask t)
      { s with tasks := s.tasks ++ [t], notifyOnes := s.notifyOnes + 1 }
  | pause : StepCase s .pause { s with paused := true }
  | resume : StepCase s .resume { s with paused := false, notifyAlls := s.notifyAlls + 1 }
  | stop (hfree : s.locked = false) :
    StepCase s .stop { s with stop := true, paused := false, workers := s.workers.map Worker.wake }
  | setMaxConcurrent (max : ℕ) : StepCase s (.setMaxConcurrent max) { s with maxConcurrent := max }
  | notifyOne {woken : Option ℕ} {s₁ : ThreadPoolScheduler τ} (hwake : s.wakeOne woken = some s₁) :
    StepCase s (.notifyOne woken) { s₁ with notifyOnes := s₁.notifyOnes - 1 }
  | notifyAll :
    StepCase s .notifyAll
      { s with notifyAlls := s.notifyAlls - 1, workers := s.workers.map Worker.wake }
  | worker {i : ℕ} {s' : ThreadPoolScheduler τ} (hloop : s.workerLoop i = some s') :
    StepCase s (.worker i) s'
  | execute {i : ℕ} (returns : Bool) {t : τ} (hw : s.workers[i]? = some (.running t)) :
    StepCase s (.execute i returns) (s.setWorker i (.count returns))
  | workerNotify {i : ℕ} {woken : Option ℕ} {s' : ThreadPoolScheduler τ}
      (hw : s.workers[i]? = some .notify) (hwake : (s.setWorker i .lock).wakeOne woken = some s') :
    StepCase s (.workerNotify i woken) s'
  | spuriousWakeup {i : ℕ} (hw : s.workers[i]? = some .blocked) :
    StepCase s (.spuriousWakeup i) (s.setWorker i .lock)

/-- **What a step can do**: the only place where the steps are taken apart. -/
theorem step_cases {a : SchedulerAction τ} {s' : ThreadPoolScheduler τ} (h : s.step a = some s') :
    s.StepCase a s' := by
  cases a with
  | scheduleTask t =>
    obtain ⟨hlocked, h⟩ := Option.ite_none_left_eq_some.mp h
    cases h
    exact .scheduleTask t (Bool.not_eq_true _ ▸ hlocked)
  | pause =>
    cases h
    exact .pause
  | resume =>
    cases h
    exact .resume
  | setMaxConcurrent max =>
    cases h
    exact .setMaxConcurrent max
  | stop =>
    obtain ⟨hlocked, h⟩ := Option.ite_none_left_eq_some.mp h
    cases h
    exact .stop (Bool.not_eq_true _ ▸ hlocked)
  | notifyOne woken =>
    obtain ⟨-, h⟩ := Option.ite_none_left_eq_some.mp h
    obtain ⟨s₁, hwake, rfl⟩ := Option.map_eq_some_iff.mp h
    exact .notifyOne hwake
  | notifyAll =>
    obtain ⟨-, h⟩ := Option.ite_none_left_eq_some.mp h
    cases h
    exact .notifyAll
  | worker i => exact .worker h
  | execute i returns =>
    rw [step] at h
    split at h <;> cases h
    rename_i t hw
    exact .execute returns hw
  | workerNotify i woken =>
    rw [step] at h
    split at h
    · rename_i hw
      exact .workerNotify hw h
    · cases h
  | spuriousWakeup i =>
    rw [step] at h
    split at h <;> cases h
    rename_i hw
    exact .spuriousWakeup hw

/-- **The scheduler is a pool of workers with one queue.** Each of its steps does to tasks
what `moveOf` says. -/
theorem step_pool {a : SchedulerAction τ} {s' : ThreadPoolScheduler τ} (h : s.step a = some s') :
    WorkPool.Step s.pool (s.moveOf a) s'.pool := by
  cases step_cases h with
  | scheduleTask t => exact .put s.pool t
  | pause | resume | setMaxConcurrent max => exact .rest _
  | stop | notifyAll => exact step_of_pool_eq (congrArg (WorkPool.mk s.tasks) hands_wake)
  | @notifyOne _ s₁ hwake =>
    have hpool : s₁.pool = s.pool := wakeOne_pool hwake
    exact step_of_pool_eq hpool
  | worker hloop => exact workerLoop_pool hloop
  | @execute i returns t hw =>
    have hstep : WorkPool.Step ⟨s.tasks, s.pool.hands⟩ (.finish i t)
        ⟨s.tasks, s.pool.hands.set i none⟩ := .finish (hands_getElem? hw)
    rw [moveOf, hw]
    show WorkPool.Step _ _ ⟨s.tasks, (s.setWorker i (.count returns)).workers.map Worker.task⟩
    rw [hands_setWorker]
    exact hstep
  | workerNotify hw hwake =>
    refine step_of_pool_eq ((wakeOne_pool hwake).trans ?_)
    exact congrArg (WorkPool.mk s.tasks) (hands_setWorker_of_task hw rfl)
  | spuriousWakeup hw => exact step_of_worker hw rfl rfl rfl

/-- Only `scheduleTask` puts tasks in and only `execute` finishes them. -/
theorem moveOf_eq {a : SchedulerAction τ} (ha : a.onTask = false) :
    s.moveOf a = .rest ∨ ∃ i, s.moveOf a = .take i := by
  cases a with
  | scheduleTask t => cases ha
  | execute i returns => cases ha
  | worker i =>
    rw [moveOf]
    split
    · exact Or.inr ⟨i, rfl⟩
    · exact Or.inl rfl
  | _ => exact Or.inl rfl

end ThreadPoolScheduler
