import HttpServer.SchedulerSteps

/-!
# The concurrency limit of the thread pool

A worker looks at `active_tasks_` twice before it takes a task, and counts the task while it still
has the mutex. Only the second look matters: `Stop` lets every worker past the wait predicate. What
is counted off is counted off without the mutex, but that only makes room.

So a worker that is about to take a task has found room and keeps it, since the others cannot count
one up in the meantime, and the limit holds in every state (`concurrency_limit`).
-/

namespace Worker

variable {τ : Type*}

/-- It is about to take a task. -/
def popping : Worker τ → Bool
  | .pop => true
  | _ => false

/-- It is executing a task. -/
def isRunning : Worker τ → Bool
  | .running _ => true
  | _ => false

theorem popping_wake (w : Worker τ) : w.wake.popping = w.popping := by cases w <;> rfl

theorem critical_of_popping {w : Worker τ} (h : w.popping = true) : w.critical = true := by
  cases w with
  | pop => rfl
  | _ => cases h

theorem active_of_isRunning {w : Worker τ} (h : w.isRunning = true) : w.active = true := by
  cases w with
  | running t => rfl
  | _ => cases h

end Worker

namespace ThreadPoolScheduler

variable {τ : Type*} {s s' : ThreadPoolScheduler τ} {max : ℕ}

/-- Nobody is in a critical section while the mutex is free. -/
theorem Sound.countP_eq_zero (hs : s.Sound) (hfree : s.locked = false) {p : Worker τ → Bool}
    (hp : ∀ w : Worker τ, p w = true → w.critical = true) : s.workers.countP p = 0 := by
  have hle := List.countP_mono_left fun w (_ : w ∈ s.workers) => hp w
  rw [hs.mutex, hfree] at hle
  exact Nat.le_zero.mp hle

/-- **The limit is kept**, and a worker that is about to take a task has room for it. -/
structure Limited (max : ℕ) (s : ThreadPoolScheduler τ) : Prop where
  sound : s.Sound
  max_eq : s.maxConcurrent = max
  active_le : s.activeTasks ≤ max
  room : s.workers.countP Worker.popping = 0 ∨ s.activeTasks < max

theorem limited_started (workers max : ℕ) :
    (started workers max : ThreadPoolScheduler τ).Limited max where
  sound := sound_started workers max
  max_eq := rfl
  active_le := Nat.zero_le max
  room := Or.inl (countP_started Worker.popping rfl)

/-- The limit changes in no other way. -/
theorem stepOf_maxConcurrent {kind : SchedulerKind} {a : SchedulerAction τ}
    (ha : a.setsLimit = false) (h : s.stepOf kind a = some s') :
    s'.maxConcurrent = s.maxConcurrent := by
  by_cases hloop : ∃ i, a = .worker i
  · obtain ⟨i, rfl⟩ := hloop
    cases workerLoop_turn (stepOf_worker h) with
    | takes _ _ _ _ _ hmax => exact hmax
    | goesOn _ _ _ _ hmax _ _ => exact hmax
  · exact (stepOf_callFrame (not_exists.mp hloop) h).maxConcurrent_eq ha

/-- A worker goes on with its loop. -/
theorem Limited.turn (h : s.Limited max) (hmax : 0 < max) (hsound : s'.Sound) {i : ℕ}
    (hturn : LoopTurn s s' i) : s'.Limited max := by
  cases hturn with
  | takes hw _ _ hactive hlocked hmax' =>
    -- it has had room, and whoever comes next has yet to look
    have hpopping : 0 < s.workers.countP Worker.popping :=
      List.countP_pos_iff.mpr ⟨_, List.mem_of_getElem? hw, rfl⟩
    have hroom := h.room.resolve_left (Nat.pos_iff_ne_zero.mp hpopping)
    exact ⟨hsound, hmax'.trans h.max_eq, by omega,
      Or.inl (hsound.countP_eq_zero hlocked fun _ => Worker.critical_of_popping)⟩
  | @goesOn w w' hw hworkers _ hactive hmax' _ hpop =>
    refine ⟨hsound, hmax'.trans h.max_eq, Nat.le_trans hactive h.active_le, ?_⟩
    cases hpopping : w'.popping with
    | true =>
      have hw' : w' = .pop := by
        cases w' with
        | pop => rfl
        | _ => cases hpopping
      have hroom := (hpop hw').2
      rw [h.max_eq] at hroom
      exact Or.inr (Nat.lt_of_le_of_lt hactive (hroom hmax))
    | false =>
      refine h.room.imp (fun hnone => ?_) (Nat.lt_of_le_of_lt hactive)
      have hle := Threads.countP_set_le hw hpopping
      rw [hnone, ← hworkers] at hle
      exact Nat.le_zero.mp hle

/-- **Every step but `SetMaxConcurrent` keeps the limit.** -/
theorem Limited.stepOf (h : s.Limited max) (hmax : 0 < max) {kind : SchedulerKind}
    {a : SchedulerAction τ} (ha : a.setsLimit = false) (hstep : s.stepOf kind a = some s') :
    s'.Limited max := by
  have hsound := h.sound.stepOf hstep
  have hmax' := (stepOf_maxConcurrent ha hstep).trans h.max_eq
  cases stepOf_effect h.sound hstep with
  | loop _ => exact h.turn hmax hsound (workerLoop_turn (stepOf_worker hstep))
  | @execute i t returns hw he =>
    subst he
    refine ⟨hsound, hmax', h.active_le, h.room.imp_left fun hnone => ?_⟩
    have hle := Threads.countP_set_le (p := Worker.popping) hw (b := .count returns) rfl
    rw [hnone] at hle
    exact Nat.le_zero.mp hle
  | quiet he =>
    have hpopping := he.countP_eq Worker.popping Worker.popping_wake rfl
    exact ⟨hsound, hmax', by rw [he.activeTasks_eq]; exact h.active_le,
      by rw [hpopping, he.activeTasks_eq]; exact h.room⟩

/-- The tasks that are being executed are counted. -/
theorem Sound.countP_isRunning_le (hs : s.Sound) :
    s.workers.countP Worker.isRunning ≤ s.activeTasks := by
  rw [← hs.active]
  exact List.countP_mono_left fun _ _ => Worker.active_of_isRunning

/-- **The concurrency limit holds.** With any number of workers and any positive limit, in every
interleaving of the workers with the calls of a scheduler of either class, spurious wake-ups
included, in which the limit is not changed: there are at most as many active tasks as the limit
says in every state, and at most as many tasks being executed as active ones. -/
theorem concurrency_limit (kind : SchedulerKind) (workers : ℕ) {max : ℕ} (hmax : 0 < max)
    {actions : List (SchedulerAction τ)} (hfixed : ∀ a ∈ actions, a.setsLimit = false) :
    (machine τ kind).Always
      (fun s => s.activeTasks ≤ max ∧ s.workers.countP Worker.isRunning ≤ s.activeTasks)
      (started workers max) actions :=
  Machine.always_of_along (I := Limited max) (C := fun _ a => a.setsLimit = false)
    (fun _ h => ⟨h.active_le, h.sound.countP_isRunning_le⟩)
    (fun _ _ _ h ha hr => h.stepOf hmax ha (machine_step hr).1)
    (limited_started workers max) (Machine.along_of_forall _ _ hfixed)

/-- Two workers with a limit of one, the second of which comes while the first executes a task and
`Stop` has been called. -/
theorem concurrency_limit_stop :
    (machine ℕ .createDefault).Always
      (fun s => s.activeTasks ≤ 1 ∧ s.workers.countP Worker.isRunning ≤ s.activeTasks)
      (started 2 1)
      ([.scheduleTask 1, .scheduleTask 2] ++ List.replicate 6 (.worker 0) ++ [.stop]
        ++ List.replicate 5 (.worker 1)) :=
  concurrency_limit .createDefault 2 (by decide) (by decide)

end ThreadPoolScheduler
