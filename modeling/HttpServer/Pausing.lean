import HttpServer.ConcurrencyLimit
import HttpServer.SchedulerTasks

/-!
# Pausing the thread pool

`Pause` sets `paused_` and returns. It does not take the mutex, as `Stop` does, and so it may come
while a worker is in its critical section. One that has passed its test of `paused_` by then takes a
task all the same, after `Pause` has returned; one that has not finds the flag and goes back to
waiting.

`pause_takes_effect_iff` makes this exact: nothing is taken behind a call of `Pause`, whatever
happens until the next `Resume` or `Stop`, if and only if no worker is between its test and its pop
at the call.
-/

/-- It holds the mutex then. -/
theorem Worker.critical_of_passed {τ : Type*} {w : Worker τ} (h : w.passed = true) :
    w.critical = true := by
  cases w with
  | testLimit => rfl
  | pop => rfl
  | _ => cases h

namespace ThreadPoolScheduler

variable {τ : Type*} {s s' : ThreadPoolScheduler τ} {kind : SchedulerKind}

/-- **Nothing is taken behind a call of `Pause`** in this state, whatever the threads do, until
`Resume` or `Stop` is called. -/
def PauseTakesEffect (kind : SchedulerKind) (s : ThreadPoolScheduler τ) : Prop :=
  ∀ after s' events, (∀ a ∈ after, a.unpauses = false) →
    (machine τ kind).run s (.pause :: after) = some (s', events) → taken events = []

/-! ## Behind a pause that takes effect -/

/-- Only a worker takes tasks, at its pop. -/
theorem eventOf_eq_taken {a : SchedulerAction τ} {t : τ} (h : s.eventOf a = some (.taken t)) :
    ∃ i, a = .worker i ∧ s.workers[i]? = some .pop := by
  cases a with
  | worker i =>
    refine ⟨i, rfl, ?_⟩
    rw [eventOf] at h
    split at h
    · assumption
    · cases h
  | execute i returns =>
    obtain ⟨t', -, ht⟩ := Option.map_eq_some_iff.mp h
    cases ht
  | _ => cases h

/-- **The scheduler is paused**, and no worker has passed its test of `paused_`. -/
structure Halted (s : ThreadPoolScheduler τ) : Prop where
  sound : s.Sound
  paused : s.paused = true
  none_passed : s.workers.countP Worker.passed = 0

/-- **Every step but `Resume` and `Stop` leaves it so**, and takes nothing. -/
theorem Halted.stepOf (h : s.Halted) {a : SchedulerAction τ} (ha : a.unpauses = false)
    (hstep : s.stepOf kind a = some s') :
    s'.Halted ∧ ∀ t, s.eventOf a ≠ some (.taken t) := by
  have hsound := h.sound.stepOf hstep
  have hnone : ∀ {i : ℕ} {w : Worker τ}, s.workers[i]? = some w → w.passed = false := fun hw =>
    Bool.eq_false_iff.mpr (List.countP_eq_zero.mp h.none_passed _ (List.mem_of_getElem? hw))
  have hevent : ∀ t, s.eventOf a ≠ some (.taken t) := by
    intro t ht
    obtain ⟨i, -, hw⟩ := eventOf_eq_taken ht
    cases hnone hw
  refine ⟨?_, hevent⟩
  cases stepOf_effect h.sound hstep with
  | loop he =>
    refine ⟨hsound, he.paused_eq.trans h.paused, ?_⟩
    cases workerLoop_turn (stepOf_worker hstep) with
    | takes hw _ _ _ _ _ => cases hnone hw
    | @goesOn w w' hw hworkers _ _ _ htest hpop =>
      -- there is no way past the test of `paused_`
      have hpassed : w'.passed = false := by
        cases w' with
        | testLimit =>
          exact absurd ((htest rfl).1.symm.trans h.paused) Bool.false_ne_true
        | pop =>
          rw [(hpop rfl).1] at hw
          cases hnone hw
        | _ => rfl
      have hle := Threads.countP_set_le hw hpassed
      rw [h.none_passed, ← hworkers] at hle
      exact Nat.le_zero.mp hle
  | @execute i t returns hw he =>
    subst he
    refine ⟨hsound, h.paused, ?_⟩
    have hle := Threads.countP_set_le (p := Worker.passed) hw (b := .count returns) rfl
    rw [h.none_passed] at hle
    exact Nat.le_zero.mp hle
  | quiet he =>
    have hpaused : s'.paused = true := by
      by_cases hloop : ∃ i, a = .worker i
      · obtain ⟨i, rfl⟩ := hloop
        obtain ⟨w, w', he⟩ := h.sound.loopEffect (stepOf_worker hstep)
        exact he.paused_eq.trans h.paused
      · exact (stepOf_callFrame (not_exists.mp hloop) hstep).paused_of ha h.paused
    exact ⟨hsound, hpaused, (he.countP_eq _ Worker.passed_wake rfl).trans h.none_passed⟩

/-- Nothing is taken in a run that begins so. -/
theorem Halted.taken_eq_nil (h : s.Halted) {actions : List (SchedulerAction τ)}
    (hactions : ∀ a ∈ actions, a.unpauses = false) {events : List (Option (TaskEvent τ))}
    (hr : (machine τ kind).run s actions = some (s', events)) : taken events = [] := by
  induction actions generalizing s events with
  | nil =>
    cases hr
    rfl
  | cons a actions ih =>
    obtain ⟨r, events', hstep, hr', rfl⟩ := Machine.run_cons_eq_some.mp hr
    obtain ⟨hstepOf, hevent⟩ := machine_step hstep
    obtain ⟨ha, hactions⟩ := List.forall_mem_cons.mp hactions
    obtain ⟨hhalted, hnone⟩ := h.stepOf ha hstepOf
    rw [← hevent] at hnone
    have hrest := ih hhalted hactions hr'
    cases hr : r.2 with
    | none => exact hrest
    | some event =>
      cases event with
      | taken t => exact absurd hr (hnone t)
      | _ => exact hrest

/-! ## Behind one that comes too late -/

/-- **A worker that has passed its test finds a task.** -/
structure Supplied (s : ThreadPoolScheduler τ) : Prop where
  sound : s.Sound
  supplied : s.workers.countP Worker.passed = 0 ∨ s.tasks ≠ []

theorem supplied_started (workers maxConcurrent : ℕ) :
    (started workers maxConcurrent : ThreadPoolScheduler τ).Supplied where
  sound := sound_started workers maxConcurrent
  supplied := Or.inl (countP_started Worker.passed rfl)

/-- A worker goes on with its loop. -/
theorem Supplied.turn (h : s.Supplied) (hsound : s'.Sound) {i : ℕ} (hturn : LoopTurn s s' i) :
    s'.Supplied := by
  refine ⟨hsound, ?_⟩
  cases hturn with
  | takes _ _ _ _ hlocked _ =>
    exact Or.inl (hsound.countP_eq_zero hlocked fun _ => Worker.critical_of_passed)
  | @goesOn w w' hw hworkers htasks _ _ htest hpop =>
    rw [htasks]
    cases hpassed : w'.passed with
    | true =>
      refine Or.inr ?_
      cases w' with
      | testLimit => exact (htest rfl).2
      | pop =>
        -- it was at its second look, behind the same test
        obtain ⟨rfl, -⟩ := hpop rfl
        have hpos : 0 < s.workers.countP Worker.passed :=
          List.countP_pos_iff.mpr ⟨_, List.mem_of_getElem? hw, rfl⟩
        exact h.supplied.resolve_left (Nat.pos_iff_ne_zero.mp hpos)
      | _ => cases hpassed
    | false =>
      refine h.supplied.imp_left fun hnone => ?_
      have hle := Threads.countP_set_le hw hpassed
      rw [hnone, ← hworkers] at hle
      exact Nat.le_zero.mp hle

theorem Supplied.stepOf (h : s.Supplied) {a : SchedulerAction τ}
    (hstep : s.stepOf kind a = some s') : s'.Supplied := by
  have hsound := h.sound.stepOf hstep
  by_cases hloop : ∃ i, a = .worker i
  · obtain ⟨i, rfl⟩ := hloop
    exact h.turn hsound (workerLoop_turn (stepOf_worker hstep))
  · have htasks := (stepOf_callFrame (not_exists.mp hloop) hstep).tasks_of
    refine ⟨hsound, h.supplied.imp (fun hnone => ?_) htasks⟩
    cases stepOf_effect h.sound hstep with
    | @loop i _ _ _ => exact absurd ⟨i, rfl⟩ hloop
    | @execute i t returns hw he =>
      have hle := Threads.countP_set_le (p := Worker.passed) hw (b := .count returns) rfl
      rw [hnone] at hle
      rw [he]
      exact Nat.le_zero.mp hle
    | quiet he => exact (he.countP_eq _ Worker.passed_wake rfl).trans hnone

/-- A worker at its pop takes the first task. -/
theorem step_pop (kind : SchedulerKind) {i : ℕ} (hw : s.workers[i]? = some .pop) {t : τ}
    {tasks : List τ} (htasks : s.tasks = t :: tasks) :
    ∃ s', (machine τ kind).step s (.worker i) = some (s', some (.taken t)) := by
  have hloop : s.stepOf kind (.worker i) = some { s.setWorker i (.running t) with
      tasks, activeTasks := s.activeTasks + 1, locked := false } := by
    have hstep : s.stepOf kind (.worker i) = s.workerLoop i := by cases kind <;> rfl
    rw [hstep, workerLoop, hw]
    dsimp only
    rw [htasks]
  have hevent : s.eventOf (.worker i) = some (.taken t) := by
    rw [eventOf, hw]
    dsimp only
    rw [htasks]
    rfl
  rw [← hevent]
  exact ⟨_, congrArg (Option.map fun s' => (s', s.eventOf (.worker i))) hloop⟩

/-- One at its second look at the limit goes on to its pop when there is no limit. -/
theorem step_testLimit (kind : SchedulerKind) {i : ℕ} (hw : s.workers[i]? = some .testLimit)
    (hmax : s.maxConcurrent = 0) :
    (machine τ kind).step s (.worker i) = some (s.setWorker i .pop, none) := by
  have hloop : s.stepOf kind (.worker i) = some (s.setWorker i .pop) := by
    have hstep : s.stepOf kind (.worker i) = s.workerLoop i := by cases kind <;> rfl
    rw [hstep, workerLoop, hw, hmax]
    rfl
  show (s.stepOf kind (.worker i)).map _ = _
  rw [hloop, eventOf, hw]
  rfl

/-- **A worker that has passed its test takes a task behind the pause.** -/
theorem Supplied.not_pauseTakesEffect (h : s.Supplied) {w : Worker τ} (hw : w ∈ s.workers)
    (hpassed : w.passed = true) : ¬ PauseTakesEffect kind s := by
  intro hpause
  have hpos : 0 < s.workers.countP Worker.passed := List.countP_pos_iff.mpr ⟨w, hw, hpassed⟩
  have htasks := h.supplied.resolve_left (Nat.pos_iff_ne_zero.mp hpos)
  obtain ⟨t, tasks, htasks⟩ := List.exists_cons_of_ne_nil htasks
  obtain ⟨i, hi⟩ := List.mem_iff_getElem?.mp hw
  have hpaused : (machine τ kind).step s .pause = some ({ s with paused := true }, none) := by
    cases kind <;> rfl
  cases w with
  | pop =>
    obtain ⟨s', hpop⟩ := step_pop kind (s := { s with paused := true }) hi htasks
    have hrun : (machine τ kind).run s [.pause, .worker i]
        = some (s', [none, some (.taken t)]) :=
      Machine.run_cons_eq_some.mpr ⟨_, _, hpaused,
        Machine.run_cons_eq_some.mpr ⟨_, _, hpop, rfl, rfl⟩, rfl⟩
    have hnone := hpause [.worker i] s' _ (List.forall_mem_singleton.mpr rfl) hrun
    cases hnone
  | testLimit =>
    -- the limit is taken away, so that it does not send the worker back
    obtain ⟨s₁, hs₁, hworkers, htasks₁, hmax⟩ : ∃ s₁ : ThreadPoolScheduler τ,
        (machine τ kind).step { s with paused := true } (.setMaxConcurrent 0) = some (s₁, none)
          ∧ s₁.workers = s.workers ∧ s₁.tasks = s.tasks ∧ s₁.maxConcurrent = 0 := by
      cases kind <;> exact ⟨_, rfl, rfl, rfl, rfl⟩
    have hlook := step_testLimit kind (hworkers ▸ hi) hmax
    have hset : (s₁.setWorker i .pop).workers[i]? = some .pop := by
      have hlt := (List.getElem?_eq_some_iff.mp hi).1
      show (s₁.workers.set i .pop)[i]? = some .pop
      rw [hworkers, List.getElem?_set_self hlt]
    obtain ⟨s', hpop⟩ := step_pop kind hset (htasks₁.trans htasks)
    have hrun : (machine τ kind).run s [.pause, .setMaxConcurrent 0, .worker i, .worker i]
        = some (s', [none, none, none, some (.taken t)]) :=
      Machine.run_cons_eq_some.mpr ⟨_, _, hpaused, Machine.run_cons_eq_some.mpr ⟨_, _, hs₁,
        Machine.run_cons_eq_some.mpr ⟨_, _, hlook,
          Machine.run_cons_eq_some.mpr ⟨_, _, hpop, rfl, rfl⟩, rfl⟩, rfl⟩, rfl⟩
    have hnone := hpause [.setMaxConcurrent 0, .worker i, .worker i] s' _ (by
      rintro a (_ | ⟨_, _ | ⟨_, _ | ⟨_, ha⟩⟩⟩)
      · rfl
      · rfl
      · rfl
      · cases ha) hrun
    cases hnone
  | _ => cases hpassed

/-! ## When a pause takes effect -/

/-- **When `Pause` takes effect.** With any number of workers, any limit and a scheduler of either
class, in every interleaving up to a call of `Pause`: no worker takes a task behind the call,
whatever the threads do until `Resume` or `Stop` is called, exactly if no worker is between its test
of `paused_` and its pop when `Pause` is called. -/
theorem pause_takes_effect_iff (kind : SchedulerKind) {workers maxConcurrent : ℕ}
    {before : List (SchedulerAction τ)} {events : List (Option (TaskEvent τ))}
    (hr : (machine τ kind).run (started workers maxConcurrent) before = some (s, events)) :
    PauseTakesEffect kind s ↔ ∀ w ∈ s.workers, w.passed = false := by
  have hsupplied : s.Supplied :=
    (Machine.always_of_step (P := Supplied) (fun _ h => h)
      (fun _ _ _ h hstep => h.stepOf (machine_step hstep).1)
      (supplied_started workers maxConcurrent)).of_run hr
  constructor
  · intro hpause w hw
    by_contra hpassed
    exact hsupplied.not_pauseTakesEffect hw (Bool.not_eq_false _ ▸ hpassed) hpause
  · intro hnone after s' events' hafter hrun
    have hhalted : ({ s with paused := true } : ThreadPoolScheduler τ).Halted :=
      ⟨⟨hsupplied.sound.mutex, hsupplied.sound.active⟩, rfl,
        List.countP_eq_zero.mpr fun w hw => Bool.eq_false_iff.mp (hnone w hw)⟩
    obtain ⟨r, events'', hstep, hrest, rfl⟩ := Machine.run_cons_eq_some.mp hrun
    obtain ⟨hstepOf, hevent⟩ := machine_step hstep
    have hr₁ : r.1 = { s with paused := true } := by
      cases kind <;> exact (Option.some.inj hstepOf).symm
    rw [hr₁] at hrest
    have htaken := hhalted.taken_eq_nil hafter hrest
    rw [hevent]
    exact htaken

/-- A worker is about to evaluate the wait predicate when `Pause` is called. -/
theorem pause_takes_effect_iff_check :
    ∃ s : ThreadPoolScheduler ℕ,
      (machine ℕ .createDefault).run (started 2 1) [.scheduleTask 1, .worker 0]
        = some (s, [some (.submitted 1), none])
      ∧ (PauseTakesEffect .createDefault s ↔ ∀ w ∈ s.workers, w.passed = false) := by
  have hr : (machine ℕ .createDefault).run (started 2 1) [.scheduleTask 1, .worker 0]
      = some ({ tasks := [1], locked := true, maxConcurrent := 1, workers := [.check, .lock],
                notifyOnes := 1 }, [some (.submitted 1), none]) := rfl
  exact ⟨_, hr, pause_takes_effect_iff .createDefault hr⟩

/-- A worker has passed its test of `paused_`, and takes the task behind the call. -/
theorem pause_too_late :
    ∃ s s' : ThreadPoolScheduler ℕ,
      (machine ℕ .createDefault).run (started 1 0)
          (.scheduleTask 1 :: List.replicate 4 (.worker 0))
        = some (s, some (.submitted 1) :: List.replicate 4 none)
      ∧ (machine ℕ .createDefault).run s [.pause, .worker 0, .worker 0]
        = some (s', [none, none, some (.taken 1)])
      ∧ ¬ PauseTakesEffect .createDefault s := by
  refine ⟨{ tasks := [1], locked := true, maxConcurrent := 0, workers := [.testLimit],
            notifyOnes := 1 }, _, rfl, rfl, fun hpause => ?_⟩
  cases hpause [.worker 0, .worker 0] _ [none, none, some (.taken 1)] (by decide) rfl

end ThreadPoolScheduler
