import HttpServer.SchedulerSteps

/-!
# Lost wake-ups

A worker of the thread pool that finds the wait predicate false blocks, and it is a notification
that wakes it. `ScheduleTask` and `Stop` change what the predicate reads under the mutex, so that
no worker is between evaluating it and blocking. `Resume` does not take the mutex: its
`notify_all` may come when the worker that has just seen the scheduler paused is not blocked yet,
and then it wakes nobody. A second worker would be awake then. The only one goes to sleep on a
queue that nobody will tell it about again.

`wake_ups_iff_along` says that this is the only way to lose a wake-up, for both classes: that
`SetMaxConcurrent` notifies in one of them and not in the other makes no difference, since the
limit keeps a worker waiting only while another one is at work.
-/

namespace ThreadPoolScheduler

variable {τ : Type*} {s s' : ThreadPoolScheduler τ}

/-! ## The condition -/

/-- **A wake-up is lost**: there is something to do, all workers are blocked, and no call has
still to notify them. -/
def Lost (s : ThreadPoolScheduler τ) : Prop :=
  s.waitPredicate = true ∧ s.workers ≠ [] ∧ (∀ w ∈ s.workers, w = .blocked)
    ∧ s.notifyOnes = 0 ∧ s.notifyAlls = 0

/-- If it is the only worker that blocks, then nothing is queued that it should run, or somebody
has still to notify it. -/
def BlocksInTime (s : ThreadPoolScheduler τ) (a : SchedulerAction τ) : Prop :=
  a = .worker 0 → s.workers = [.block] →
    s.tasks = [] ∨ s.paused = true ∨ 0 < s.notifyOnes ∨ 0 < s.notifyAlls

/-! ## The invariant -/

/-- There is a reason to wake up, if nobody is at work. -/
def Due (s : ThreadPoolScheduler τ) : Prop :=
  s.stop = true ∨ s.tasks ≠ [] ∧ s.paused = false

/-- One of these workers will look at the queue, or it is too late to tell them. -/
def Alert (workers : List (Worker τ)) : Prop :=
  (∃ w ∈ workers, w.restless = true) ∨ ∀ w ∈ workers, w = .block

theorem alert_of_not_blocked {workers : List (Worker τ)} (h : ∀ w ∈ workers, w ≠ .blocked) :
    Alert workers := by
  by_cases hrestless : ∃ w ∈ workers, w.restless = true
  · exact Or.inl hrestless
  · refine Or.inr fun w hw => ?_
    have hrests : ¬ w.restless = true := fun hr => hrestless ⟨w, hw, hr⟩
    cases w with
    | block => rfl
    | blocked => exact absurd rfl (h _ hw)
    | _ => exact absurd rfl hrests

theorem wake_ne_blocked (w : Worker τ) : w.wake ≠ .blocked := by
  cases w <;> (intro h; cases h)

theorem alert_map_wake (workers : List (Worker τ)) : Alert (workers.map Worker.wake) := by
  refine alert_of_not_blocked fun w hw => ?_
  obtain ⟨v, -, rfl⟩ := List.mem_map.mp hw
  exact wake_ne_blocked v

theorem alert_wakeOne {woken : Option ℕ} (h : s.wakeOne woken = some s') : Alert s'.workers := by
  obtain ⟨-, hlock | hnone⟩ := wakeOne_effect h
  · exact Or.inl ⟨.lock, hlock, rfl⟩
  · refine alert_of_not_blocked fun w hw hblocked => ?_
    rw [List.any_eq_false] at hnone
    exact hnone w hw (by rw [hblocked]; rfl)

/-- **No worker sleeps through its wake-up.** After `Stop` nobody is asleep, and when there is
something to do somebody is awake or will be notified. -/
structure Wakeful (s : ThreadPoolScheduler τ) : Prop where
  sound : s.Sound
  stopped : s.stop = true → ∀ w ∈ s.workers, w.restless = true
  heard : s.Due → 0 < s.notifyOnes ∨ 0 < s.notifyAlls ∨ Alert s.workers

theorem wakeful_started (workers maxConcurrent : ℕ) :
    (started workers maxConcurrent : ThreadPoolScheduler τ).Wakeful where
  sound := sound_started workers maxConcurrent
  stopped := fun h => Bool.noConfusion h
  heard := by
    rintro (h | ⟨h, -⟩)
    · cases h
    · exact absurd rfl h

/-- Where the predicate is false although there is something to do, a worker is at work. -/
theorem exists_active (hs : s.Sound) (hdue : s.Due) (h : s.waitPredicate = false) :
    s.stop = false ∧ ∃ w ∈ s.workers, w.active = true := by
  unfold waitPredicate at h
  obtain ⟨hstop, hrest⟩ := Bool.or_eq_false_iff.mp h
  refine ⟨hstop, ?_⟩
  rcases hdue with hdue | ⟨htasks, hpaused⟩
  · rw [hstop] at hdue
    cases hdue
  · have hempty : s.tasks.isEmpty = false := by
      rw [Bool.eq_false_iff, ne_eq, List.isEmpty_iff]
      exact htasks
    rw [hempty, hpaused] at hrest
    simp only [Bool.not_false, Bool.and_self, Bool.true_and, Bool.or_eq_false_iff,
      decide_eq_false_iff_not, beq_eq_false_iff_ne] at hrest
    have hpos : 0 < s.workers.countP Worker.active := by
      rw [hs.active]
      omega
    exact List.countP_pos_iff.mp hpos

/-- What is not replaced stays. -/
theorem mem_set_of_ne {workers : List (Worker τ)} {i : ℕ} {v w : Worker τ} (hv : v ∈ workers)
    (hw : workers[i]? = some w) (hne : v ≠ w) (w' : Worker τ) : v ∈ workers.set i w' := by
  obtain ⟨j, hj⟩ := List.mem_iff_getElem?.mp hv
  refine List.mem_iff_getElem?.mpr ⟨j, ?_⟩
  rw [List.getElem?_set_ne, hj]
  rintro rfl
  rw [hj, Option.some.injEq] at hw
  exact hne hw

/-- If all workers are about to block, there is only one. -/
theorem eq_block_of_all (hs : s.Sound) {i : ℕ} {w : Worker τ} (hw : s.workers[i]? = some w)
    (hall : ∀ v ∈ s.workers, v = .block) : i = 0 ∧ s.workers = [.block] := by
  have hcount : s.workers.countP Worker.critical = s.workers.length :=
    List.countP_eq_length.mpr fun v hv => by rw [hall v hv]; rfl
  have hone : s.workers.length ≤ 1 := by
    rw [← hcount, hs.mutex]
    exact Bool.toNat_le _
  have hi : i < s.workers.length := (List.getElem?_eq_some_iff.mp hw).1
  have hlength : s.workers.length = 1 := by omega
  obtain ⟨v, hv⟩ := List.length_eq_one_iff.mp hlength
  refine ⟨by omega, ?_⟩
  rw [hv, hall v (by rw [hv]; exact List.mem_singleton_self v)]

/-- A worker that does not come to rest looks at the queue again. -/
theorem alert_set {workers : List (Worker τ)} {i : ℕ} {w w' : Worker τ}
    (hw : workers[i]? = some w) (hw' : w'.restless = true) : Alert (workers.set i w') :=
  Or.inl ⟨w', List.mem_set (List.getElem?_eq_some_iff.mp hw).1 w', hw'⟩

/-- **A worker that comes to rest.** It does so where nothing is to be done, where another one is
awake, or where it will be notified. -/
theorem Wakeful.heard_of_rests (hs : s.Wakeful) {i : ℕ} (hc : s.BlocksInTime (.worker i))
    {w w' : Worker τ} (he : LoopEffect s s' i w w') (hrest : w'.restless = false)
    (hdue : s'.Due) : 0 < s.notifyOnes ∨ 0 < s.notifyAlls ∨ Alert s'.workers := by
  obtain ⟨htasks, hmove⟩ := he.rests hrest
  have hdue : s.Due := by rwa [Due, he.stop_eq, htasks, he.paused_eq] at hdue
  -- another worker that is awake stays awake
  have hother : ∀ v ∈ s.workers, v.restless = true → v ≠ w → Alert s'.workers := by
    intro v hv hrestless hne
    rw [he.workers_eq]
    exact Or.inl ⟨v, mem_set_of_ne hv he.worker_eq hne w', hrestless⟩
  rcases hmove with ⟨rfl, rfl, hpred⟩ | ⟨rfl, rfl⟩
  · obtain ⟨-, v, hv, hactive⟩ := exists_active hs.sound hdue hpred
    refine Or.inr (Or.inr (hother v hv ?_ ?_))
    · cases v with
      | block => cases hactive
      | blocked => cases hactive
      | _ => rfl
    · rintro rfl
      cases hactive
  · rcases hs.heard hdue with hone | hall | ⟨v, hv, hrestless⟩ | hblock
    · exact Or.inl hone
    · exact Or.inr (Or.inl hall)
    · refine Or.inr (Or.inr (hother v hv hrestless ?_))
      rintro rfl
      cases hrestless
    · obtain ⟨rfl, hworkers⟩ := eq_block_of_all hs.sound he.worker_eq hblock
      rcases hc rfl hworkers with hnone | hpaused | hone | hall
      · rcases hdue with hstop | ⟨hsome, -⟩
        · have hawake := hs.stopped hstop _ (List.mem_of_getElem? he.worker_eq)
          cases hawake
        · exact absurd hnone hsome
      · rcases hdue with hstop | ⟨-, hrunning⟩
        · have hawake := hs.stopped hstop _ (List.mem_of_getElem? he.worker_eq)
          cases hawake
        · rw [hpaused] at hrunning
          cases hrunning
      · exact Or.inl hone
      · exact Or.inr (Or.inl hall)

/-- After `Stop` no worker comes to rest. -/
theorem Wakeful.restless_of_stop (hs : s.Wakeful) {i : ℕ} {w w' : Worker τ}
    (he : LoopEffect s s' i w w') (hstop : s.stop = true) : w'.restless = true := by
  rw [← Bool.not_eq_false]
  intro hrest
  obtain ⟨-, ⟨-, -, hpred⟩ | ⟨rfl, -⟩⟩ := he.rests hrest
  · obtain ⟨hno, -⟩ := exists_active hs.sound (Or.inl hstop) hpred
    rw [hstop] at hno
    cases hno
  · have hawake := hs.stopped hstop _ (List.mem_of_getElem? he.worker_eq)
    cases hawake

theorem Wakeful.workerLoop (hs : s.Wakeful) {i : ℕ} (hc : s.BlocksInTime (.worker i))
    (h : s.workerLoop i = some s') : s'.Wakeful := by
  obtain ⟨w, w', he⟩ := hs.sound.loopEffect h
  refine ⟨hs.sound.loop he, fun hstop => ?_, fun hdue => ?_⟩
  · rw [he.stop_eq] at hstop
    rw [he.workers_eq]
    exact Threads.forall_mem_set (hs.stopped hstop) (hs.restless_of_stop he hstop) i
  · rw [he.notifyOnes_eq, he.notifyAlls_eq]
    cases hrest : w'.restless with
    | true =>
      rw [he.workers_eq]
      exact Or.inr (Or.inr (alert_set he.worker_eq hrest))
    | false => exact hs.heard_of_rests hc he hrest hdue

/-- A worker goes on to a step that is not one of rest. -/
theorem Wakeful.setWorker (hs : s.Wakeful) {i : ℕ} {w w' : Worker τ}
    (hsound : (s.setWorker i w').Sound) (hw : s.workers[i]? = some w)
    (hrestless : w'.restless = true) : (s.setWorker i w').Wakeful := by
  refine ⟨hsound, fun hstop => ?_, fun _ => Or.inr (Or.inr (alert_set hw hrestless))⟩
  exact Threads.forall_mem_set (hs.stopped hstop) hrestless i

theorem Wakeful.wakeOne (hs : s.Wakeful) {woken : Option ℕ} (h : s.wakeOne woken = some s') :
    s'.Wakeful := by
  have halert := alert_wakeOne h
  have hsound := hs.sound.wakeOne h
  obtain ⟨⟨workers, rfl, hroused⟩, -⟩ := wakeOne_effect h
  exact ⟨hsound, fun hstop => hroused.forall_restless (hs.stopped hstop),
    fun _ => Or.inr (Or.inr halert)⟩

/-- The workers that are blocked are woken, all of them. -/
theorem Wakeful.wakeAll (hs : s.Wakeful) :
    ({ s with workers := s.workers.map Worker.wake } : ThreadPoolScheduler τ).Wakeful :=
  ⟨hs.sound.roused (.map_wake _),
    fun hstop => (Roused.map_wake _).forall_restless (hs.stopped hstop),
    fun _ => Or.inr (Or.inr (alert_map_wake _))⟩

/-- `Stop` holds the mutex, so no worker is about to block. -/
theorem restless_of_unlocked (hs : s.Sound) (hlocked : s.locked = false) :
    ∀ w ∈ s.workers.map Worker.wake, w.restless = true := by
  intro w hw
  obtain ⟨v, hv, rfl⟩ := List.mem_map.mp hw
  cases v with
  | block =>
    have hheld := hs.locked_of_critical hv rfl
    rw [hlocked] at hheld
    cases hheld
  | _ => rfl

/-- **A step keeps everybody reachable**, if the only worker blocks in time. -/
theorem Wakeful.step (hs : s.Wakeful) {a : SchedulerAction τ} (hc : s.BlocksInTime a)
    (h : s.step a = some s') : s'.Wakeful := by
  have hsound := hs.sound.step h
  cases step_cases h with
  | scheduleTask t => exact ⟨hsound, hs.stopped, fun _ => Or.inl (Nat.succ_pos _)⟩
  | pause =>
    refine ⟨hsound, hs.stopped, fun hdue => hs.heard ?_⟩
    rcases hdue with hstop | ⟨-, hpaused⟩
    · exact Or.inl hstop
    · cases hpaused
  | resume => exact ⟨hsound, hs.stopped, fun _ => Or.inr (Or.inl (Nat.succ_pos _))⟩
  | setMaxConcurrent max => exact ⟨hsound, hs.stopped, hs.heard⟩
  | stop hfree =>
    exact ⟨hsound, fun _ => restless_of_unlocked hs.sound hfree,
      fun _ => Or.inr (Or.inr (alert_map_wake _))⟩
  | @notifyOne _ s₁ hwake =>
    have halert : Alert s₁.workers := alert_wakeOne hwake
    exact ⟨hsound, (hs.wakeOne hwake).stopped, fun _ => Or.inr (Or.inr halert)⟩
  | notifyAll =>
    exact ⟨hsound, hs.wakeAll.stopped, fun _ => Or.inr (Or.inr (alert_map_wake _))⟩
  | worker hloop => exact hs.workerLoop hc hloop
  | execute returns hw => exact hs.setWorker hsound hw rfl
  | @workerNotify i woken _ hw hwake =>
    have hlock : (s.setWorker i .lock).Wakeful :=
      hs.setWorker (hs.sound.setWorker hw rfl rfl) hw rfl
    exact hlock.wakeOne hwake
  | spuriousWakeup hw => exact hs.setWorker hsound hw rfl

/-! ## Lost wake-ups -/

/-- Nobody is lost who can be reached. -/
theorem Wakeful.not_lost (hs : s.Wakeful) : ¬ s.Lost := by
  rintro ⟨hpred, hsome, hblocked, hone, hall⟩
  have hdue : s.Due := by
    unfold waitPredicate at hpred
    rcases Bool.or_eq_true_iff.mp hpred with hstop | hrest
    · exact Or.inl hstop
    · simp only [Bool.and_eq_true, Bool.not_eq_true', List.isEmpty_eq_false_iff] at hrest
      exact Or.inr hrest.1
  obtain ⟨w, hw⟩ := List.exists_mem_of_ne_nil _ hsome
  rcases hs.heard hdue with hpos | hpos | ⟨v, hv, hrestless⟩ | hblock
  · omega
  · omega
  · rw [hblocked v hv] at hrestless
    cases hrestless
  · have hclash := (hblocked w hw).symm.trans (hblock w hw)
    cases hclash

/-- The only worker blocks, and the queue is forgotten. -/
theorem Wakeful.lost_of_late (hs : s.Wakeful) {a : SchedulerAction τ} (hc : ¬ s.BlocksInTime a)
    (h : s.step a = some s') : s'.Lost := by
  unfold BlocksInTime at hc
  push Not at hc
  obtain ⟨rfl, hworkers, htasks, hpaused, hone, hall⟩ := hc
  have hnone : s.notifyOnes = 0 := by omega
  have hnone' : s.notifyAlls = 0 := by omega
  have hactive : 0 = s.activeTasks := by
    have hcount := hs.sound.active
    rw [hworkers] at hcount
    exact hcount
  have hblocked : s.workers.set 0 .blocked = [.blocked] := by
    rw [hworkers]
    rfl
  rw [ThreadPoolScheduler.step, ThreadPoolScheduler.workerLoop, hworkers] at h
  cases h
  refine ⟨?_, ?_, ?_, hnone, hnone'⟩
  · have hsome : s.tasks.isEmpty = false := by
      rw [Bool.eq_false_iff, ne_eq, List.isEmpty_iff]
      exact htasks
    have hrunning : s.paused = false := by rwa [Bool.eq_false_iff]
    show (s.stop || (!s.tasks.isEmpty && !s.paused
      && (s.maxConcurrent == 0 || decide (s.activeTasks < s.maxConcurrent)))) = true
    rw [hsome, hrunning, ← hactive]
    -- with nobody at work the limit, if there is any, is not reached
    rcases Nat.eq_zero_or_pos s.maxConcurrent with hmax | hmax <;> simp [hmax]
  · show s.workers.set 0 .blocked ≠ []
    rw [hblocked]
    exact List.cons_ne_nil _ _
  · show ∀ w ∈ s.workers.set 0 .blocked, w = .blocked
    rw [hblocked]
    exact fun w hw => List.mem_singleton.mp hw

/-- `SetMaxConcurrent` of the second class, which notifies. -/
theorem Wakeful.stepOf (hs : s.Wakeful) {kind : SchedulerKind} {a : SchedulerAction τ}
    (hc : s.BlocksInTime a) (h : s.stepOf kind a = some s') : s'.Wakeful := by
  rcases stepOf_cases h with hstep | ⟨max, -, rfl⟩
  · exact hs.step hc hstep
  · exact ⟨⟨hs.sound.mutex, hs.sound.active⟩, hs.stopped,
      fun _ => Or.inr (Or.inl (Nat.succ_pos _))⟩

/-- **No wake-up is lost but by a single worker.** In a run of the thread pool, of either class
and with any number of workers, nobody ever sleeps on a queue that is due exactly when the only
worker never goes from a wait predicate that was false to blocking after it has become due, with
no notification to come. -/
theorem wake_ups_iff_along (kind : SchedulerKind) (workers maxConcurrent : ℕ)
    (actions : List (SchedulerAction τ)) :
    (machine τ kind).Always (fun s => ¬ s.Lost) (started workers maxConcurrent) actions
      ↔ (machine τ kind).Along BlocksInTime (started workers maxConcurrent) actions := by
  refine Machine.always_iff_along (fun s hs => Wakeful.not_lost hs) ?_ ?_
    (wakeful_started workers maxConcurrent)
  · intro s a r hs hc hr
    exact hs.stepOf hc (machine_step hr).1
  · intro s a r hs hc hr
    obtain rfl : a = .worker 0 := by
      by_contra hne
      exact hc fun ha => absurd ha hne
    have hstep : s.step (.worker 0) = some r.1 := by
      cases kind <;> exact (machine_step hr).1
    exact fun hkept => hkept (hs.lost_of_late hc hstep)

instance [DecidableEq τ] (s : ThreadPoolScheduler τ) : Decidable s.Lost :=
  inferInstanceAs (Decidable (_ ∧ _))

/-- The worker has seen the scheduler paused when `Resume` notifies, and blocks afterwards: the
task stays in the queue. -/
theorem resume_unheard : ¬ (machine ℕ .createDefault).Always (fun s => ¬ s.Lost) (started 1 1)
    [.pause, .scheduleTask 7, .notifyOne none, .worker 0, .worker 0, .resume, .notifyAll,
      .worker 0] := by
  decide

/-- With a second worker no wake-up is lost. -/
theorem no_lost_wake_up (kind : SchedulerKind) {workers : ℕ} (hworkers : workers ≠ 1)
    (maxConcurrent : ℕ) (actions : List (SchedulerAction τ)) :
    (machine τ kind).Always (fun s => ¬ s.Lost) (started workers maxConcurrent) actions := by
  refine (wake_ups_iff_along kind workers maxConcurrent actions).mpr ?_
  refine Machine.along_of_along (I := fun s => s.workers.length = workers) ?_ ?_
    List.length_replicate (Machine.along_true _ actions)
  · intro s a r hlength _ hr
    exact (stepOf_length_workers (machine_step hr).1).trans hlength
  · intro s a r hlength _ _ _ hone
    rw [hone] at hlength
    exact absurd hlength.symm hworkers

end ThreadPoolScheduler
