import HttpServer.Scheduler
import HttpServer.Threads
import Mathlib.Data.List.Forall2

/-!
# What a step of the thread pool does

The workers of `ThreadPoolScheduler` by what they are at: holding the mutex, having a task counted
as active, or about to count one as completed or failed. `workerLoop_effect` says once what a step
of the loop changes, and `Sound` what follows for every run: the mutex is held by the one worker
that is in its critical section, and `active_tasks_` is the number of the workers between taking a
task and having it counted.
-/

namespace Worker

variable {τ : Type*}

/-- It holds the mutex. -/
def critical : Worker τ → Bool
  | .check | .block | .testStop | .testPaused | .testLimit | .pop => true
  | _ => false

/-- Its task is counted in `active_tasks_`. -/
def active : Worker τ → Bool
  | .running _ | .count _ | .release => true
  | _ => false

/-- It has executed its task, and the task is not counted yet. -/
def counting : Worker τ → Bool
  | .count _ => true
  | _ => false

/-- It has passed its test of `paused_`, and has yet to take a task. -/
def passed : Worker τ → Bool
  | .testLimit | .pop => true
  | _ => false

/-- It has left its loop. -/
def hasExited : Worker τ → Bool
  | .exited => true
  | _ => false

/-- It is neither blocked nor about to block. -/
def restless : Worker τ → Bool
  | .block | .blocked => false
  | _ => true

@[simp] theorem critical_wake (w : Worker τ) : w.wake.critical = w.critical := by cases w <;> rfl

@[simp] theorem active_wake (w : Worker τ) : w.wake.active = w.active := by cases w <;> rfl

@[simp] theorem counting_wake (w : Worker τ) : w.wake.counting = w.counting := by cases w <;> rfl

@[simp] theorem passed_wake (w : Worker τ) : w.wake.passed = w.passed := by cases w <;> rfl

@[simp] theorem hasExited_wake (w : Worker τ) : w.wake.hasExited = w.hasExited := by
  cases w <;> rfl

theorem restless_wake (w : Worker τ) (h : w.restless = true) : w.wake.restless = true := by
  cases w with
  | blocked => cases h
  | block => cases h
  | _ => rfl

end Worker

/-- A task ends. -/
def SchedulerAction.executes {τ : Type*} : SchedulerAction τ → Bool
  | .execute _ _ => true
  | _ => false

/-- `Stop` sets `stop_`. -/
def SchedulerAction.stops {τ : Type*} : SchedulerAction τ → Bool
  | .stop => true
  | _ => false

/-- `SetMaxConcurrent` sets the limit. -/
def SchedulerAction.setsLimit {τ : Type*} : SchedulerAction τ → Bool
  | .setMaxConcurrent _ => true
  | _ => false

/-- `Resume` and `Stop` take `paused_` back. -/
def SchedulerAction.unpauses {τ : Type*} : SchedulerAction τ → Bool
  | .resume | .stop => true
  | _ => false

/-- What happens to a task. -/
inductive TaskEvent (τ : Type*)
  /-- It is put into the queue. -/
  | submitted (t : τ)
  /-- A worker takes it. -/
  | taken (t : τ)
  /-- It has returned or thrown. -/
  | executed (t : τ)
  deriving DecidableEq

/-- Some of the workers that were blocked have been woken. -/
def Roused {τ : Type*} (workers workers' : List (Worker τ)) : Prop :=
  List.Forall₂ (fun w w' => w' = w ∨ w' = w.wake) workers workers'

namespace Roused

variable {τ : Type*} {workers workers' : List (Worker τ)}

theorem refl (workers : List (Worker τ)) : Roused workers workers :=
  List.forall₂_same.mpr fun _ _ => Or.inl rfl

theorem map_wake (workers : List (Worker τ)) : Roused workers (workers.map Worker.wake) :=
  List.forall₂_map_right_iff.mpr (List.forall₂_same.mpr fun _ _ => Or.inr rfl)

theorem set_lock {i : ℕ} (h : workers[i]? = some .blocked) :
    Roused workers (workers.set i .lock) := by
  induction workers generalizing i with
  | nil => cases h
  | cons w workers ih =>
    cases i with
    | zero =>
      cases h
      exact .cons (Or.inr rfl) (refl workers)
    | succ i => exact .cons (Or.inl rfl) (ih h)

/-- What waking does not touch is counted as before. -/
theorem countP_eq (h : Roused workers workers') {p : Worker τ → Bool}
    (hp : ∀ w : Worker τ, p w.wake = p w) : workers'.countP p = workers.countP p := by
  induction h with
  | nil => rfl
  | cons hw _ ih =>
    rw [List.countP_cons, List.countP_cons, ih]
    rcases hw with rfl | rfl
    · rfl
    · rw [hp]

/-- Workers that were not resting are not put to rest. -/
theorem forall_restless (h : Roused workers workers') (hw : ∀ w ∈ workers, w.restless = true) :
    ∀ w ∈ workers', w.restless = true := by
  induction h with
  | nil => exact hw
  | @cons w w' workers workers' hwake _ ih =>
    obtain ⟨hfirst, hrest⟩ := List.forall_mem_cons.mp hw
    refine List.forall_mem_cons.mpr ⟨?_, ih hrest⟩
    rcases hwake with rfl | rfl
    · exact hfirst
    · exact w.restless_wake hfirst

end Roused

namespace ThreadPoolScheduler

variable {τ : Type*} {s s' : ThreadPoolScheduler τ} {i : ℕ}

/-- **What a step of `workerLoop` does**: one worker goes from `w` to `w'`. -/
structure LoopEffect (s s' : ThreadPoolScheduler τ) (i : ℕ) (w w' : Worker τ) : Prop where
  worker_eq : s.workers[i]? = some w
  workers_eq : s'.workers = s.workers.set i w' := by rfl
  stop_eq : s'.stop = s.stop := by rfl
  paused_eq : s'.paused = s.paused := by rfl
  notifyOnes_eq : s'.notifyOnes = s.notifyOnes := by rfl
  notifyAlls_eq : s'.notifyAlls = s.notifyAlls := by rfl
  locked_eq : s'.locked.toNat + w.critical.toNat = s.locked.toNat + w'.critical.toNat := by rfl
  activeTasks_eq : s'.activeTasks + w.active.toNat = s.activeTasks + w'.active.toNat := by rfl
  counted_eq : s'.completedTasks + s'.failedTasks + w'.counting.toNat
    = s.completedTasks + s.failedTasks + w.counting.toNat := by rfl
  /-- It comes to rest only by blocking. -/
  rests : w'.restless = false → s'.tasks = s.tasks
    ∧ (w = .check ∧ w' = .block ∧ s.waitPredicate = false ∨ w = .block ∧ w' = .blocked) := by
      intro h
      cases h
  /-- It leaves the loop only when it is told to and nothing is left. -/
  exits : w' = .exited → s.stop = true ∧ s.tasks = [] := by
      intro h
      cases h

/-- A step of the loop, if the mutex is held where it has to be and the task is counted. -/
theorem workerLoop_effect (h : s.workerLoop i = some s')
    (hlocked : ∀ w, s.workers[i]? = some w → w.critical = true → s.locked = true)
    (hactive : s.workers[i]? = some .release → 0 < s.activeTasks) :
    ∃ w w', LoopEffect s s' i w w' := by
  cases hw : s.workers[i]? with
  | none =>
    rw [workerLoop, hw] at h
    cases h
  | some w =>
    -- a worker that lets go of the mutex had it
    have hunlock : w.critical = true → false.toNat + w.critical.toNat = s.locked.toNat + 0 := by
      intro hcritical
      rw [hlocked w hw hcritical, hcritical]
      rfl
    rw [workerLoop, hw] at h
    cases w with
    | lock =>
      obtain ⟨hfree, h⟩ := Option.ite_none_left_eq_some.mp h
      cases h
      rw [Bool.not_eq_true] at hfree
      exact ⟨_, .check, { worker_eq := hw, locked_eq := by rw [hfree]; rfl }⟩
    | check =>
      cases h
      cases hpred : s.waitPredicate with
      | true => exact ⟨_, .testStop, { worker_eq := hw }⟩
      | false =>
        exact ⟨_, .block, { worker_eq := hw, rests := fun _ => ⟨rfl, .inl ⟨rfl, rfl, hpred⟩⟩ }⟩
    | block =>
      cases h
      exact ⟨_, .blocked,
        { worker_eq := hw, locked_eq := hunlock rfl, rests := fun _ => ⟨rfl, .inr ⟨rfl, rfl⟩⟩ }⟩
    | testStop =>
      dsimp only at h
      split at h <;> cases h
      · rename_i hstop
        obtain ⟨hstop, hempty⟩ := Bool.and_eq_true_iff.mp hstop
        exact ⟨_, .exited,
          { worker_eq := hw
            locked_eq := hunlock rfl
            exits := fun _ => ⟨hstop, List.isEmpty_iff.mp hempty⟩ }⟩
      · exact ⟨_, .testPaused, { worker_eq := hw }⟩
    | testPaused =>
      dsimp only at h
      split at h <;> cases h
      · exact ⟨_, .lock, { worker_eq := hw, locked_eq := hunlock rfl }⟩
      · exact ⟨_, .testLimit, { worker_eq := hw }⟩
    | testLimit =>
      dsimp only at h
      split at h <;> cases h
      · exact ⟨_, .lock, { worker_eq := hw, locked_eq := hunlock rfl }⟩
      · exact ⟨_, .pop, { worker_eq := hw }⟩
    | pop =>
      dsimp only at h
      split at h <;> cases h
      rename_i t tasks htasks
      exact ⟨_, .running t, { worker_eq := hw, locked_eq := hunlock rfl }⟩
    | count completed =>
      cases completed <;> cases h
      · exact ⟨_, .release, { worker_eq := hw }⟩
      · have hcounted : s.completedTasks + 1 + s.failedTasks
            = s.completedTasks + s.failedTasks + 1 := by omega
        exact ⟨_, .release, { worker_eq := hw, counted_eq := hcounted }⟩
    | release =>
      cases h
      exact ⟨_, .notify, { worker_eq := hw, activeTasks_eq := Nat.sub_add_cancel (hactive hw) }⟩
    | blocked => cases h
    | running t => cases h
    | notify => cases h
    | exited => cases h

/-- What a `notify_one` does. -/
theorem wakeOne_effect {woken : Option ℕ} (h : s.wakeOne woken = some s') :
    (∃ workers, s' = { s with workers } ∧ Roused s.workers workers)
      ∧ (.lock ∈ s'.workers ∨ s'.workers.any Worker.isBlocked = false) := by
  unfold wakeOne at h
  split at h
  · split at h <;> cases h
    rename_i hnone
    exact ⟨⟨s.workers, rfl, .refl _⟩, Or.inr (Bool.eq_false_iff.mpr hnone)⟩
  · split at h <;> cases h
    rename_i hj
    exact ⟨⟨_, rfl, .set_lock hj⟩,
      Or.inl (List.mem_set (List.getElem?_eq_some_iff.mp hj).1 _)⟩

/-- **What a step of `workerLoop` does to the queue and the limit.** The worker takes a task, or it
goes on, and then it is at its second look at the limit only behind its test of `paused_`, and about
to take a task only behind that look. -/
inductive LoopTurn (s s' : ThreadPoolScheduler τ) (i : ℕ) : Prop
  | takes {t : τ} (hw : s.workers[i]? = some .pop)
      (hworkers : s'.workers = s.workers.set i (.running t)) (htasks : s.tasks = t :: s'.tasks)
      (hactive : s'.activeTasks = s.activeTasks + 1) (hlocked : s'.locked = false)
      (hmax : s'.maxConcurrent = s.maxConcurrent)
  | goesOn {w v : Worker τ} (hw : s.workers[i]? = some w)
      (hworkers : s'.workers = s.workers.set i v) (htasks : s'.tasks = s.tasks)
      (hactive : s'.activeTasks ≤ s.activeTasks) (hmax : s'.maxConcurrent = s.maxConcurrent)
      (htest : v = .testLimit → s.paused = false ∧ s.tasks ≠ [])
      (hpop : v = .pop →
        w = .testLimit ∧ (0 < s.maxConcurrent → s.activeTasks < s.maxConcurrent))

/-- A worker goes on, and has not passed its test of `paused_`. -/
theorem LoopTurn.moves {w v : Worker τ} (hw : s.workers[i]? = some w)
    (hworkers : s'.workers = s.workers.set i v) (htasks : s'.tasks = s.tasks)
    (hactive : s'.activeTasks ≤ s.activeTasks) (hmax : s'.maxConcurrent = s.maxConcurrent)
    (hv : v.passed = false) : LoopTurn s s' i := by
  refine .goesOn hw hworkers htasks hactive hmax ?_ ?_
  · rintro rfl
    cases hv
  · rintro rfl
    cases hv

theorem workerLoop_turn (h : s.workerLoop i = some s') : LoopTurn s s' i := by
  cases hw : s.workers[i]? with
  | none =>
    rw [workerLoop, hw] at h
    cases h
  | some w =>
    rw [workerLoop, hw] at h
    cases w with
    | lock =>
      obtain ⟨-, h⟩ := Option.ite_none_left_eq_some.mp h
      cases h
      exact .moves hw rfl rfl (Nat.le_refl _) rfl rfl
    | check =>
      cases h
      cases hpred : s.waitPredicate with
      | true => exact .moves (v := .testStop) hw rfl rfl (Nat.le_refl _) rfl rfl
      | false => exact .moves (v := .block) hw rfl rfl (Nat.le_refl _) rfl rfl
    | block =>
      cases h
      exact .moves hw rfl rfl (Nat.le_refl _) rfl rfl
    | testStop =>
      dsimp only at h
      split at h <;> cases h <;> exact .moves hw rfl rfl (Nat.le_refl _) rfl rfl
    | testPaused =>
      dsimp only at h
      split at h <;> cases h
      · exact .moves hw rfl rfl (Nat.le_refl _) rfl rfl
      · rename_i htest
        rw [Bool.not_eq_true, Bool.or_eq_false_iff, List.isEmpty_eq_false_iff] at htest
        exact .goesOn hw rfl rfl (Nat.le_refl _) rfl (fun _ => htest) fun h => by cases h
    | testLimit =>
      dsimp only at h
      split at h <;> cases h
      · exact .moves hw rfl rfl (Nat.le_refl _) rfl rfl
      · rename_i hroom
        simp only [Bool.and_eq_true, decide_eq_true_eq, not_and, Nat.not_le] at hroom
        exact .goesOn hw rfl rfl (Nat.le_refl _) rfl (fun h => by cases h) fun _ => ⟨rfl, hroom⟩
    | pop =>
      dsimp only at h
      split at h <;> cases h
      rename_i t tasks htasks
      exact .takes hw rfl htasks rfl rfl rfl
    | count completed =>
      cases completed <;> cases h <;> exact .moves hw rfl rfl (Nat.le_refl _) rfl rfl
    | release =>
      cases h
      exact .moves hw rfl rfl (Nat.sub_le _ _) rfl rfl
    | blocked => cases h
    | running t => cases h
    | notify => cases h
    | exited => cases h

/-! ## The mutex and the active tasks -/

/-- **The flags agree with the workers.** The mutex is held by as many workers as are in their
critical sections, which is one if it is held, and the active tasks are those of the workers. -/
structure Sound (s : ThreadPoolScheduler τ) : Prop where
  mutex : s.workers.countP Worker.critical = s.locked.toNat
  active : s.workers.countP Worker.active = s.activeTasks

theorem countP_started (p : Worker τ → Bool) (hp : p .lock = false) {workers maxConcurrent : ℕ} :
    (started workers maxConcurrent : ThreadPoolScheduler τ).workers.countP p = 0 := by
  refine List.countP_eq_zero.mpr fun w hw => ?_
  rw [List.eq_of_mem_replicate hw, hp]
  exact Bool.false_ne_true

/-- The workers begin outside, with nothing to do. -/
theorem sound_started (workers maxConcurrent : ℕ) :
    (started workers maxConcurrent : ThreadPoolScheduler τ).Sound :=
  ⟨countP_started Worker.critical rfl, countP_started Worker.active rfl⟩

theorem Sound.locked_of_critical (hs : s.Sound) {w : Worker τ} (hw : w ∈ s.workers)
    (hcritical : w.critical = true) : s.locked = true := by
  have hpos := List.countP_pos_iff.mpr ⟨w, hw, hcritical⟩
  rw [hs.mutex] at hpos
  cases hlocked : s.locked with
  | true => rfl
  | false =>
    rw [hlocked] at hpos
    exact absurd hpos (Nat.lt_irrefl 0)

theorem Sound.active_pos (hs : s.Sound) {w : Worker τ} (hw : w ∈ s.workers)
    (hactive : w.active = true) : 0 < s.activeTasks := by
  have hpos := List.countP_pos_iff.mpr ⟨w, hw, hactive⟩
  rwa [hs.active] at hpos

theorem Sound.loopEffect (hs : s.Sound) (h : s.workerLoop i = some s') :
    ∃ w w', LoopEffect s s' i w w' :=
  workerLoop_effect h (fun _ hw => hs.locked_of_critical (List.mem_of_getElem? hw))
    fun hw => hs.active_pos (List.mem_of_getElem? hw) rfl

/-- A worker moves on where neither the mutex nor the active tasks change. -/
theorem Sound.setWorker (hs : s.Sound) {w w' : Worker τ} (hw : s.workers[i]? = some w)
    (hcritical : w'.critical = w.critical) (hactive : w'.active = w.active) :
    (s.setWorker i w').Sound where
  mutex := by
    have hcount := Threads.countP_set_add Worker.critical hw w'
    rw [hcritical] at hcount
    exact (Nat.add_right_cancel hcount).trans hs.mutex
  active := by
    have hcount := Threads.countP_set_add Worker.active hw w'
    rw [hactive] at hcount
    exact (Nat.add_right_cancel hcount).trans hs.active

theorem Sound.roused (hs : s.Sound) {workers : List (Worker τ)} (h : Roused s.workers workers) :
    ({ s with workers } : ThreadPoolScheduler τ).Sound where
  mutex := (h.countP_eq Worker.critical_wake).trans hs.mutex
  active := (h.countP_eq Worker.active_wake).trans hs.active

theorem Sound.wakeOne (hs : s.Sound) {woken : Option ℕ} (h : s.wakeOne woken = some s') :
    s'.Sound := by
  obtain ⟨⟨workers, rfl, hroused⟩, -⟩ := wakeOne_effect h
  exact hs.roused hroused

theorem Sound.loop (hs : s.Sound) {w w' : Worker τ} (he : LoopEffect s s' i w w') : s'.Sound := by
  have hcritical := Threads.countP_set_add Worker.critical he.worker_eq w'
  have hactive := Threads.countP_set_add Worker.active he.worker_eq w'
  have hmutex := hs.mutex
  have htasks := hs.active
  have hlocked := he.locked_eq
  have hcounted := he.activeTasks_eq
  constructor
  · rw [he.workers_eq]
    omega
  · rw [he.workers_eq]
    omega

/-! ## All steps -/

/-- What a step does that neither goes on with the loop of a worker nor ends a task. -/
structure QuietEffect (s s' : ThreadPoolScheduler τ) (a : SchedulerAction τ) : Prop where
  /-- A worker may wake up, or have notified another one. -/
  countP_eq (p : Worker τ → Bool) (hwake : ∀ w, p w.wake = p w) (hnotify : p .notify = p .lock) :
    s'.workers.countP p = s.workers.countP p
  locked_eq : s'.locked = s.locked := by rfl
  activeTasks_eq : s'.activeTasks = s.activeTasks := by rfl
  completedTasks_eq : s'.completedTasks = s.completedTasks := by rfl
  failedTasks_eq : s'.failedTasks = s.failedTasks := by rfl
  stop_eq : s'.stop = (a.stops || s.stop) := by rfl
  quiet : a.executes = false := by rfl

/-- **What a step does.** -/
inductive StepEffect (s s' : ThreadPoolScheduler τ) : SchedulerAction τ → Prop
  | loop {i : ℕ} {w w' : Worker τ} (h : LoopEffect s s' i w w') : StepEffect s s' (.worker i)
  | execute {i : ℕ} {t : τ} {returns : Bool} (hw : s.workers[i]? = some (.running t))
      (h : s' = s.setWorker i (.count returns)) : StepEffect s s' (.execute i returns)
  | quiet {a : SchedulerAction τ} (h : QuietEffect s s' a) : StepEffect s s' a

theorem quietEffect_of_wakeOne {woken : Option ℕ} (h : s.wakeOne woken = some s')
    {a : SchedulerAction τ} (hstops : a.stops = false) (hquiet : a.executes = false) :
    QuietEffect s s' a := by
  obtain ⟨⟨workers, rfl, hroused⟩, -⟩ := wakeOne_effect h
  exact
    { countP_eq := fun p hwake _ => hroused.countP_eq hwake
      stop_eq := by rw [hstops]; rfl
      quiet := hquiet }

theorem step_effect (hs : s.Sound) {a : SchedulerAction τ} (h : s.step a = some s') :
    StepEffect s s' a := by
  cases step_cases h with
  | scheduleTask | pause | resume | setMaxConcurrent =>
    exact .quiet { countP_eq := fun _ _ _ => rfl }
  | stop | notifyAll =>
    exact .quiet { countP_eq := fun p hwake _ => (Roused.map_wake _).countP_eq hwake }
  | @notifyOne woken s₁ hwake =>
    have hquiet : QuietEffect s s₁ (.notifyOne woken) := quietEffect_of_wakeOne hwake rfl rfl
    exact .quiet ⟨hquiet.countP_eq, hquiet.locked_eq, hquiet.activeTasks_eq,
      hquiet.completedTasks_eq, hquiet.failedTasks_eq, hquiet.stop_eq, rfl⟩
  | worker hloop =>
    obtain ⟨w, w', he⟩ := hs.loopEffect hloop
    exact .loop he
  | execute returns hw => exact .execute hw rfl
  | @workerNotify i woken _ hw hwake =>
    have hquiet : QuietEffect (s.setWorker i .lock) s' (.workerNotify i woken) :=
      quietEffect_of_wakeOne hwake rfl rfl
    refine .quiet { hquiet with countP_eq := fun p hrest hnotify => ?_ }
    have hcount := Threads.countP_set_add p hw .lock
    rw [hnotify] at hcount
    exact (hquiet.countP_eq p hrest hnotify).trans (Nat.add_right_cancel hcount)
  | spuriousWakeup hw =>
    exact .quiet { countP_eq := fun p hwake _ => (Roused.set_lock hw).countP_eq hwake }

/-- **Every step keeps the flags and the workers in agreement.** -/
theorem Sound.step (hs : s.Sound) {a : SchedulerAction τ} (h : s.step a = some s') :
    s'.Sound := by
  cases step_effect hs h with
  | loop he => exact hs.loop he
  | execute hw he => exact he ▸ hs.setWorker hw rfl rfl
  | quiet he =>
    constructor
    · rw [he.countP_eq _ Worker.critical_wake rfl, hs.mutex, he.locked_eq]
    · rw [he.countP_eq _ Worker.active_wake rfl, hs.active, he.activeTasks_eq]

/-! ## The machine -/

/-- One step of one of the threads, with the scheduler of either class. -/
def stepOf (s : ThreadPoolScheduler τ) :
    SchedulerKind → SchedulerAction τ → Option (ThreadPoolScheduler τ)
  | .createScheduler, .setMaxConcurrent max =>
    some { s with maxConcurrent := max, notifyAlls := s.notifyAlls + 1 }
  | _, a => s.step a

/-- What a step does to a task. -/
def eventOf (s : ThreadPoolScheduler τ) : SchedulerAction τ → Option (TaskEvent τ)
  | .scheduleTask t => some (.submitted t)
  | .worker i =>
    match s.workers[i]? with
    | some .pop => s.tasks.head?.map .taken
    | _ => none
  | .execute i _ => (s.workers[i]?.bind Worker.task).map .executed
  | _ => none

/-- The thread pool with the threads that use it, and what happens to the tasks. -/
def machine (τ : Type*) (kind : SchedulerKind) :
    Machine (ThreadPoolScheduler τ) (SchedulerAction τ) (Option (TaskEvent τ)) where
  step s a := (s.stepOf kind a).map fun s' => (s', s.eventOf a)

theorem machine_step {kind : SchedulerKind} {a : SchedulerAction τ}
    {r : ThreadPoolScheduler τ × Option (TaskEvent τ)} (h : (machine τ kind).step s a = some r) :
    s.stepOf kind a = some r.1 ∧ r.2 = s.eventOf a := by
  obtain ⟨s', hs', rfl⟩ := Option.map_eq_some_iff.mp h
  exact ⟨hs', rfl⟩

/-- The classes differ in `SetMaxConcurrent`. -/
theorem stepOf_cases {kind : SchedulerKind} {a : SchedulerAction τ}
    (h : s.stepOf kind a = some s') :
    s.step a = some s' ∨ ∃ max, a = .setMaxConcurrent max
      ∧ s' = { s with maxConcurrent := max, notifyAlls := s.notifyAlls + 1 } := by
  unfold stepOf at h
  split at h
  · cases h
    exact Or.inr ⟨_, rfl, rfl⟩
  · exact Or.inl h

theorem Sound.stepOf (hs : s.Sound) {kind : SchedulerKind} {a : SchedulerAction τ}
    (h : s.stepOf kind a = some s') : s'.Sound := by
  rcases stepOf_cases h with hstep | ⟨max, -, rfl⟩
  · exact hs.step hstep
  · exact ⟨hs.mutex, hs.active⟩

theorem stepOf_effect (hs : s.Sound) {kind : SchedulerKind} {a : SchedulerAction τ}
    (h : s.stepOf kind a = some s') : StepEffect s s' a := by
  rcases stepOf_cases h with hstep | ⟨max, rfl, rfl⟩
  · exact step_effect hs hstep
  · exact .quiet { countP_eq := fun _ _ _ => rfl }

/-- What the calls and the waking of workers leave as it is. -/
structure CallFrame (s s' : ThreadPoolScheduler τ) (a : SchedulerAction τ) : Prop where
  maxConcurrent_eq : a.setsLimit = false → s'.maxConcurrent = s.maxConcurrent := by
    exact fun _ => rfl
  paused_of : a.unpauses = false → s.paused = true → s'.paused = true := by exact fun _ => id
  tasks_of : s.tasks ≠ [] → s'.tasks ≠ [] := by exact id

theorem callFrame_of_wakeOne {woken : Option ℕ} (h : s.wakeOne woken = some s')
    (a : SchedulerAction τ) : CallFrame s s' a := by
  obtain ⟨⟨workers, rfl, -⟩, -⟩ := wakeOne_effect h
  exact {}

theorem step_callFrame {a : SchedulerAction τ} (ha : ∀ i, a ≠ .worker i)
    (h : s.step a = some s') : CallFrame s s' a := by
  cases step_cases h with
  | scheduleTask t => exact { tasks_of := fun _ => List.concat_ne_nil t s.tasks }
  | pause => exact { paused_of := fun _ _ => rfl }
  | resume | stop => exact { paused_of := fun h => by cases h }
  | setMaxConcurrent max => exact { maxConcurrent_eq := fun h => by cases h }
  | @notifyOne woken _ hwake =>
    obtain ⟨hmax, hpaused, htasks⟩ := callFrame_of_wakeOne hwake (.notifyOne woken)
    exact ⟨hmax, hpaused, htasks⟩
  | notifyAll => exact {}
  | @worker i => exact absurd rfl (ha i)
  | execute | spuriousWakeup => exact {}
  | @workerNotify i woken _ _ hwake =>
    obtain ⟨hmax, hpaused, htasks⟩ := callFrame_of_wakeOne hwake (.workerNotify i woken)
    exact ⟨hmax, hpaused, htasks⟩

/-- **A step that is none of a loop** leaves the limit, the pause and the tasks in the queue, unless
it is the call that changes them. -/
theorem stepOf_callFrame {kind : SchedulerKind} {a : SchedulerAction τ} (ha : ∀ i, a ≠ .worker i)
    (h : s.stepOf kind a = some s') : CallFrame s s' a := by
  rcases stepOf_cases h with hstep | ⟨max, rfl, rfl⟩
  · exact step_callFrame ha hstep
  · exact { maxConcurrent_eq := fun h => by cases h }

/-- The loops of the workers are those of the source in either class. -/
theorem stepOf_worker {kind : SchedulerKind} (h : s.stepOf kind (.worker i) = some s') :
    s.workerLoop i = some s' := by
  rcases stepOf_cases h with hstep | ⟨max, ha, -⟩
  · exact hstep
  · cases ha

/-- The number of workers stays the same. -/
theorem stepOf_length_workers {kind : SchedulerKind} {a : SchedulerAction τ}
    (h : s.stepOf kind a = some s') : s'.workers.length = s.workers.length := by
  rcases stepOf_cases h with hstep | ⟨max, -, rfl⟩
  · have hlength := (step_pool hstep).length_hands
    rwa [pool, pool, List.length_map, List.length_map] at hlength
  · rfl

end ThreadPoolScheduler
