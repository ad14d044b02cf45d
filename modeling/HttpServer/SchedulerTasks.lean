import HttpServer.SchedulerSteps

/-!
# The tasks of the thread pool

Every task that is put into the thread pool is taken in its turn and executed once. The ledger of
a run (`Books`) says so of each state: what was taken, followed by the queue, is what was
submitted; what was executed, with what the workers hold, is what was taken; and the two counters
count what was executed. It is kept by every step of every thread, those that pause, resume and
limit the workers included, whether a task returns or throws.

A worker leaves its loop only after `stop_` is set and when nothing is queued. So when all of them
have left, the tasks that were submitted before `stop_` was set have been executed
(`tasks_executed_once`).
-/

namespace ThreadPoolScheduler

variable {τ : Type*} {s₀ s s' : ThreadPoolScheduler τ}

/-! ## What happened to the tasks -/

/-- The tasks that were put into the queue, in order. -/
def submitted (events : List (Option (TaskEvent τ))) : List τ :=
  events.filterMap fun
    | some (.submitted t) => some t
    | _ => none

/-- The tasks that workers have taken, in order. -/
def taken (events : List (Option (TaskEvent τ))) : List τ :=
  events.filterMap fun
    | some (.taken t) => some t
    | _ => none

/-- The tasks that have returned or thrown, in order. -/
def executed (events : List (Option (TaskEvent τ))) : List τ :=
  events.filterMap fun
    | some (.executed t) => some t
    | _ => none

theorem submitted_append (events events' : List (Option (TaskEvent τ))) :
    submitted (events ++ events') = submitted events ++ submitted events' :=
  List.filterMap_append

theorem taken_append (events events' : List (Option (TaskEvent τ))) :
    taken (events ++ events') = taken events ++ taken events' :=
  List.filterMap_append

theorem executed_append (events events' : List (Option (TaskEvent τ))) :
    executed (events ++ events') = executed events ++ executed events' :=
  List.filterMap_append

/-- What an event is for the pool. -/
inductive TaskEffect (p p' : WorkPool τ) : Option (TaskEvent τ) → Prop
  | rest (h : p' = p) : TaskEffect p p' none
  | submitted {t : τ} (h : WorkPool.Step p (.put t) p') : TaskEffect p p' (some (.submitted t))
  | taken {i : ℕ} {t : τ} (h : WorkPool.Step p (.take i) p') (ht : p.queue.head? = some t) :
      TaskEffect p p' (some (.taken t))
  | executed {i : ℕ} {t : τ} (h : WorkPool.Step p (.finish i t) p') :
      TaskEffect p p' (some (.executed t))

theorem workerLoop_taskEffect {i : ℕ} (h : s.workerLoop i = some s') :
    TaskEffect s.pool s'.pool (s.eventOf (.worker i)) := by
  have hpool := workerLoop_pool h
  rw [moveOf] at hpool
  rw [eventOf]
  cases hw : s.workers[i]? with
  | none =>
    rw [hw] at hpool
    exact .rest hpool.eq_of_rest
  | some w =>
    rw [hw] at hpool
    cases w with
    | pop =>
      cases htasks : s.tasks with
      | nil =>
        rw [workerLoop, hw, htasks] at h
        cases h
      | cons t tasks => exact .taken hpool (congrArg List.head? htasks)
    | _ => exact .rest hpool.eq_of_rest

/-- **What a step does to the pool is what it is said to do.** -/
theorem stepOf_taskEffect {kind : SchedulerKind} {a : SchedulerAction τ}
    (h : s.stepOf kind a = some s') : TaskEffect s.pool s'.pool (s.eventOf a) := by
  rcases stepOf_cases h with hstep | ⟨max, rfl, rfl⟩
  · have hpool := step_pool hstep
    cases step_cases hstep with
    | scheduleTask t => exact .submitted hpool
    | worker hloop => exact workerLoop_taskEffect hloop
    | execute returns hw =>
      rw [moveOf, hw] at hpool
      rw [eventOf, hw]
      exact .executed hpool
    | _ => exact .rest hpool.eq_of_rest
  · exact .rest rfl

/-! ## The ledger -/

/-- **The books of a run** from `s₀` to `s` with these events. -/
structure Books (s₀ s : ThreadPoolScheduler τ) (events : List (Option (TaskEvent τ))) : Prop where
  sound : s.Sound
  ledger : WorkPool.Ledger s₀.pool s.pool (submitted events) (taken events) (executed events)
  counted : s.completedTasks + s.failedTasks + s.workers.countP Worker.counting
    = s₀.completedTasks + s₀.failedTasks + s₀.workers.countP Worker.counting
      + (executed events).length

theorem books_nil (hs : s.Sound) : Books s s [] := ⟨hs, .refl _, rfl⟩

/-- The ledger after one more event. -/
theorem ledger_append {p₀ p p' : WorkPool τ} {events : List (Option (TaskEvent τ))}
    {event : Option (TaskEvent τ)}
    (hl : WorkPool.Ledger p₀ p (submitted events) (taken events) (executed events))
    (h : TaskEffect p p' event) :
    WorkPool.Ledger p₀ p' (submitted (events ++ [event])) (taken (events ++ [event]))
      (executed (events ++ [event])) := by
  rw [submitted_append, taken_append, executed_append]
  cases h with
  | rest h =>
    rw [h]
    simpa [submitted, taken, executed] using hl
  | submitted h => simpa [submitted, taken, executed] using hl.put h
  | taken h ht => simpa [submitted, taken, executed] using hl.take h ht
  | executed h => simpa [submitted, taken, executed] using hl.finish h

/-- What a step adds to the executed tasks is one task if it ends one, and else none. -/
theorem length_executed_eventOf {events : List (Option (TaskEvent τ))} {a : SchedulerAction τ}
    (ha : a.executes = false) :
    (executed (events ++ [s.eventOf a])).length = (executed events).length := by
  have hnone : executed [s.eventOf a] = [] := by
    cases a with
    | execute i returns => cases ha
    | worker i =>
      rw [eventOf]
      split
      · cases s.tasks <;> rfl
      · rfl
    | _ => rfl
  rw [executed_append, hnone, List.append_nil]

/-- **Every step keeps the books.** -/
theorem Books.stepOf {events : List (Option (TaskEvent τ))} (hb : Books s₀ s events)
    {kind : SchedulerKind} {a : SchedulerAction τ} (h : s.stepOf kind a = some s') :
    Books s₀ s' (events ++ [s.eventOf a]) := by
  refine ⟨hb.sound.stepOf h, ledger_append hb.ledger (stepOf_taskEffect h), ?_⟩
  have hcounted := hb.counted
  cases stepOf_effect hb.sound h with
  | @loop i w w' he =>
    have hcount := Threads.countP_set_add Worker.counting he.worker_eq w'
    have hadd := he.counted_eq
    rw [length_executed_eventOf rfl, he.workers_eq]
    omega
  | @execute i t returns hw he =>
    have hcount := Threads.countP_set_add Worker.counting hw (.count returns)
    have hone : (executed [s.eventOf (.execute i returns)]).length = 1 := by
      rw [eventOf, hw]
      rfl
    rw [executed_append, List.length_append, hone, he]
    show s.completedTasks + s.failedTasks
      + (s.workers.set i (.count returns)).countP Worker.counting = _
    simp only [Worker.counting, Bool.toNat_true, Bool.toNat_false] at hcount
    omega
  | quiet he =>
    rw [length_executed_eventOf he.quiet, he.completedTasks_eq, he.failedTasks_eq,
      he.countP_eq _ Worker.counting_wake rfl]
    exact hcounted

theorem held_started (workers maxConcurrent : ℕ) :
    (started workers maxConcurrent : ThreadPoolScheduler τ).pool.held = [] := by
  show ((List.replicate workers (Worker.lock : Worker τ)).map Worker.task).reduceOption = []
  rw [List.map_replicate]
  exact List.reduceOption_replicate_none

/-- The books of a run. -/
theorem books_of_run {kind : SchedulerKind} {actions : List (SchedulerAction τ)}
    {events : List (Option (TaskEvent τ))} (hs : s.Sound)
    (hr : (machine τ kind).run s actions = some (s', events)) : Books s s' events := by
  refine Machine.run_invariant (books_nil hs) (fun t events a r hb hstep => ?_) hr
  obtain ⟨hstepOf, hevent⟩ := machine_step hstep
  exact hevent ▸ hb.stepOf hstepOf

/-! ## After `Stop` -/

/-- A worker leaves its loop only after `Stop`, and then the tasks that were queued when the run
began have been taken. -/
structure Draining (s₀ s : ThreadPoolScheduler τ) (events : List (Option (TaskEvent τ))) :
    Prop where
  books : Books s₀ s events
  drained : 0 < s.workers.countP Worker.hasExited →
    s.stop = true ∧ s₀.tasks.length ≤ (taken events).length

theorem length_taken_append (events : List (Option (TaskEvent τ))) (event : Option (TaskEvent τ)) :
    (taken events).length ≤ (taken (events ++ [event])).length := by
  rw [taken_append, List.length_append]
  exact Nat.le_add_right _ _

theorem Draining.stepOf {events : List (Option (TaskEvent τ))} (hd : Draining s₀ s events)
    {kind : SchedulerKind} {a : SchedulerAction τ} (h : s.stepOf kind a = some s') :
    Draining s₀ s' (events ++ [s.eventOf a]) := by
  refine ⟨hd.books.stepOf h, fun hexited => ?_⟩
  have hmore := length_taken_append events (s.eventOf a)
  cases stepOf_effect hd.books.sound h with
  | @loop i w w' he =>
    have hcount := Threads.countP_set_add Worker.hasExited he.worker_eq w'
    rw [he.workers_eq] at hexited
    rw [he.stop_eq]
    cases hw' : w'.hasExited with
    | true =>
      obtain rfl : w' = .exited := by
        cases w' with
        | exited => rfl
        | _ => cases hw'
      -- nothing is queued when a worker leaves
      obtain ⟨hstop, hnone⟩ := he.exits rfl
      have htaken := congrArg List.length hd.books.ledger.queue_eq
      rw [pool, pool, hnone, List.append_nil, List.length_append] at htaken
      exact ⟨hstop, by dsimp only at htaken; omega⟩
    | false =>
      rw [hw', Bool.toNat_false] at hcount
      obtain ⟨hstop, hold⟩ := hd.drained (by omega)
      exact ⟨hstop, Nat.le_trans hold hmore⟩
  | @execute i t returns hw he =>
    have hcount := Threads.countP_set_add Worker.hasExited hw (.count returns)
    rw [he] at hexited ⊢
    obtain ⟨hstop, hold⟩ := hd.drained (by rwa [← Nat.add_right_cancel hcount])
    exact ⟨hstop, Nat.le_trans hold hmore⟩
  | quiet he =>
    rw [he.countP_eq _ Worker.hasExited_wake rfl] at hexited
    obtain ⟨hstop, hold⟩ := hd.drained hexited
    exact ⟨by rw [he.stop_eq, hstop, Bool.or_true], Nat.le_trans hold hmore⟩

theorem draining_of_run {kind : SchedulerKind} {actions : List (SchedulerAction τ)}
    {events : List (Option (TaskEvent τ))} (hs : s.Sound)
    (hexited : s.workers.countP Worker.hasExited = 0)
    (hr : (machine τ kind).run s actions = some (s', events)) : Draining s s' events := by
  have hstart : Draining s s [] := by
    refine ⟨books_nil hs, fun hpos => ?_⟩
    rw [hexited] at hpos
    exact absurd hpos (Nat.lt_irrefl 0)
  refine Machine.run_invariant hstart (fun t events a r hd hstep => ?_) hr
  obtain ⟨hstepOf, hevent⟩ := machine_step hstep
  exact hevent ▸ hd.stepOf hstepOf

/-- Only `Stop` sets `stop_`. -/
theorem stop_eq_false_of_run {kind : SchedulerKind} {actions : List (SchedulerAction τ)}
    {events : List (Option (TaskEvent τ))} (hs : s.Sound) (hstop : s.stop = false)
    (hnone : .stop ∉ actions) (hr : (machine τ kind).run s actions = some (s', events)) :
    s'.stop = false := by
  induction actions generalizing s events with
  | nil =>
    cases hr
    exact hstop
  | cons a actions ih =>
    obtain ⟨r, events', hstep, hr', rfl⟩ := Machine.run_cons_eq_some.mp hr
    obtain ⟨hstepOf, -⟩ := machine_step hstep
    rw [List.mem_cons, not_or] at hnone
    refine ih (hs.stepOf hstepOf) ?_ hnone.2 hr'
    cases stepOf_effect hs hstepOf with
    | loop he => rw [he.stop_eq, hstop]
    | execute hw he => rw [he]; exact hstop
    | quiet he =>
      rw [he.stop_eq, hstop, Bool.or_false]
      cases a with
      | stop => exact absurd rfl hnone.1
      | _ => rfl

/-- The tasks that were queued when the run began are the first ones to be taken. -/
theorem Draining.tasks_prefix {events : List (Option (TaskEvent τ))} (hd : Draining s₀ s events)
    (hexited : 0 < s.workers.countP Worker.hasExited) : s₀.tasks <+: taken events := by
  have hqueue : taken events ++ s.tasks = s₀.tasks ++ submitted events := hd.books.ledger.queue_eq
  refine List.prefix_of_prefix_length_le ?_ (List.prefix_append _ s.tasks) (hd.drained hexited).2
  rw [hqueue]
  exact List.prefix_append _ _

/-- Workers that have left their loops hold nothing, and have counted what they executed. -/
theorem held_of_exited (h : ∀ w ∈ s.workers, w = .exited) :
    s.pool.held = [] ∧ s.workers.countP Worker.counting = 0 := by
  constructor
  · show (s.workers.map Worker.task).reduceOption = []
    rw [List.eq_replicate_of_mem h, List.map_replicate]
    exact List.reduceOption_replicate_none
  · refine List.countP_eq_zero.mpr fun w hw => ?_
    rw [h w hw]
    exact Bool.false_ne_true

/-- The number of workers in a run. -/
theorem length_workers_of_run {kind : SchedulerKind} {actions : List (SchedulerAction τ)}
    {events : List (Option (TaskEvent τ))}
    (hr : (machine τ kind).run s actions = some (s', events)) :
    s'.workers.length = s.workers.length :=
  Machine.run_invariant (I := fun t _ => t.workers.length = s.workers.length) rfl
    (fun _ _ _ _ hlength hstep => (stepOf_length_workers (machine_step hstep).1).trans hlength) hr

/-- **What was submitted before `Stop` has been taken when the workers have left.** -/
theorem submitted_prefix_of_stop {kind : SchedulerKind} {before after : List (SchedulerAction τ)}
    {events : List (Option (TaskEvent τ))} (hs : s.Sound) (htasks : s.tasks = [])
    (hstop : s.stop = false) (hexited : s.workers.countP Worker.hasExited = 0)
    (hnone : .stop ∉ before)
    (hr : (machine τ kind).run s (before ++ .stop :: after) = some (s', events))
    (hleft : 0 < s'.workers.countP Worker.hasExited) :
    submitted (events.take before.length) <+: taken events := by
  obtain ⟨s₁, events₁, events₂, hr₁, hr₂, rfl⟩ := Machine.run_append_eq_some.mp hr
  obtain ⟨r, events₃, hstep, hr₃, rfl⟩ := Machine.run_cons_eq_some.mp hr₂
  obtain ⟨hstepOf, hevent⟩ := machine_step hstep
  have hbefore := draining_of_run hs hexited hr₁
  have hsound := hbefore.books.sound
  -- no worker has left before `Stop`
  have hstill : s₁.workers.countP Worker.hasExited = 0 := by
    by_contra hpos
    have hset := (hbefore.drained (Nat.pos_of_ne_zero hpos)).1
    rw [stop_eq_false_of_run hs hstop hnone hr₁] at hset
    cases hset
  -- `Stop` itself does nothing to the queue and lets no worker leave
  have hpool : r.1.pool = s₁.pool := by
    cases stepOf_taskEffect hstepOf with
    | rest h => exact h
  have hstill' : r.1.workers.countP Worker.hasExited = 0 := by
    cases stepOf_effect hsound hstepOf with
    | quiet he => rw [he.countP_eq _ Worker.hasExited_wake rfl, hstill]
  have hafter := draining_of_run (hsound.stepOf hstepOf) hstill' hr₃
  have hqueue : taken events₁ ++ s₁.tasks = submitted events₁ := by
    have hqueue : taken events₁ ++ s₁.tasks = s.tasks ++ submitted events₁ :=
      hbefore.books.ledger.queue_eq
    rwa [htasks, List.nil_append] at hqueue
  rw [← Machine.length_of_run hr₁, List.take_left, ← hqueue, taken_append,
    List.prefix_append_right_inj]
  have hprefix := hafter.tasks_prefix hleft
  rw [show r.1.tasks = s₁.tasks from congrArg WorkPool.queue hpool] at hprefix
  rw [hevent]
  exact hprefix

/-- **Every task is executed once.** In every run of a scheduler with at least one worker, in
whatever order its threads act: tasks are taken in the order in which they were submitted, those
that were executed and those at hand are those that were taken, so that none is executed twice,
and the counters count the executions that workers are not about to count. When all workers have
left their loops after `Stop`, the tasks that were taken have been executed, each once, those that
were submitted before `Stop` are among them, and the counters count the executions. -/
theorem tasks_executed_once (kind : SchedulerKind) {workers maxConcurrent : ℕ}
    (hworkers : 0 < workers) {actions : List (SchedulerAction τ)} {s : ThreadPoolScheduler τ}
    {events : List (Option (TaskEvent τ))}
    (hr : (machine τ kind).run (started workers maxConcurrent) actions = some (s, events)) :
    taken events ++ s.tasks = submitted events
      ∧ (executed events ++ s.pool.held).Perm (taken events)
      ∧ ((submitted events).Nodup → (executed events).Nodup)
      ∧ s.completedTasks + s.failedTasks + s.workers.countP Worker.counting
        = (executed events).length
      ∧ ∀ before after, actions = before ++ .stop :: after → .stop ∉ before →
        (∀ w ∈ s.workers, w = .exited) →
        (executed events).Perm (taken events)
          ∧ submitted (events.take before.length) <+: taken events
          ∧ s.completedTasks + s.failedTasks = (executed events).length := by
  have hsound : (started workers maxConcurrent : ThreadPoolScheduler τ).Sound :=
    sound_started workers maxConcurrent
  have hbooks := books_of_run hsound hr
  have hqueue : taken events ++ s.tasks = submitted events := hbooks.ledger.queue_eq
  have hperm : (executed events ++ s.pool.held).Perm (taken events) := by
    have hperm := hbooks.ledger.perm
    rwa [held_started, List.nil_append] at hperm
  have hcounted : s.completedTasks + s.failedTasks + s.workers.countP Worker.counting
      = (executed events).length := by
    have hcounted := hbooks.counted
    rw [countP_started Worker.counting rfl, Nat.add_zero] at hcounted
    exact hcounted.trans (Nat.zero_add _)
  refine ⟨hqueue, hperm, fun hnodup => ?_, hcounted, fun before after hactions hnone hexited => ?_⟩
  · rw [← hqueue] at hnodup
    have htaken := (List.nodup_append.mp hnodup).1
    exact (List.nodup_append.mp (hperm.nodup_iff.mpr htaken)).1
  · obtain ⟨hheld, hcounting⟩ := held_of_exited hexited
    rw [hheld, List.append_nil] at hperm
    rw [hcounting, Nat.add_zero] at hcounted
    refine ⟨hperm, ?_, hcounted⟩
    rw [hactions] at hr
    refine submitted_prefix_of_stop hsound rfl rfl (countP_started Worker.hasExited rfl) hnone hr ?_
    have hlength : s.workers.length = workers :=
      (length_workers_of_run hr).trans List.length_replicate
    obtain ⟨w, hw⟩ := List.exists_mem_of_length_pos (hlength ▸ hworkers)
    exact List.countP_pos_iff.mpr ⟨w, hw, by rw [hexited w hw]; rfl⟩

/-- A task that throws, executed before the only worker leaves. -/
theorem tasks_executed_once_throws : ∃ s events,
    (machine ℕ .createDefault).run (started 1 1)
        ([.scheduleTask 7, .notifyOne none] ++ .stop :: (List.replicate 6 (.worker 0)
          ++ .execute 0 false :: List.replicate 2 (.worker 0)
          ++ .workerNotify 0 none :: List.replicate 3 (.worker 0))) = some (s, events)
      ∧ taken events = [7] ∧ (executed events).Perm (taken events) ∧ s.failedTasks = 1 := by
  have hrun : (machine ℕ .createDefault).run (started 1 1)
      ([.scheduleTask 7, .notifyOne none] ++ .stop :: (List.replicate 6 (.worker 0)
        ++ .execute 0 false :: List.replicate 2 (.worker 0)
        ++ .workerNotify 0 none :: List.replicate 3 (.worker 0)))
      = some ({ maxConcurrent := 1, stop := true, failedTasks := 1, workers := [.exited] },
        some (.submitted 7) :: List.replicate 7 none ++ some (.taken 7) :: some (.executed 7)
          :: List.replicate 6 none) := by
    decide
  exact ⟨_, _, hrun, rfl,
    ((tasks_executed_once .createDefault Nat.one_pos hrun).2.2.2.2 _ _ rfl (by decide)
      (by decide)).1, rfl⟩

end ThreadPoolScheduler
