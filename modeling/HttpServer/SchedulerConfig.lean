import HttpServer.Machine
import HttpServer.Scheduler
import Mathlib.Data.PNat.Defs

/-!
# The threads of a scheduler

What `Start`, `Stop` and `SetThreadPoolSize` of `core/Async/async_scheduler.cpp` and
`async_scheduler_impl.cpp` make of the threads of a `ThreadPoolScheduler`: the ones in `workers_`,
the ones that are in their loop, and the one of the timers. What the workers do is in `Scheduler`;
here a worker matters only as long as it is in its loop, which it leaves once it finds `stop_` set
(the queue is empty when nothing is scheduled).

`Start` takes a scheduler with workers for a scheduler that was started, and `SetThreadPoolSize`
adds workers to any scheduler. A scheduler that is made larger before `Start` has therefore no
timer thread afterwards, and fewer workers than it says (`consistent_iff_along`).
-/

/-- The threads of a `ThreadPoolScheduler`, and what its calls read and write of it. -/
structure SchedulerThreads where
  kind : SchedulerKind
  workerThreads : ℕ
  /-- The threads in `workers_`, by number. -/
  workers : List ℕ := []
  /-- The worker threads that are in their loop. -/
  live : List ℕ := []
  /-- How many worker threads there have been. -/
  spawned : ℕ := 0
  /-- `timer_thread_` is a thread, and in its loop. -/
  timerThread : Bool := false
  timerRunning : Bool := false
  stop : Bool := false
  paused : Bool := false
  /-- `Start` has been called, and not `Stop` since. -/
  started : Bool := false
  deriving DecidableEq

/-- What is called, or what a worker does. -/
inductive ConfigAction
  | setThreadPoolSize (size : ℕ+)
  | start
  | stop
  /-- This worker finds `stop_` set and leaves its loop. -/
  | leave (thread : ℕ)

namespace SchedulerThreads

variable (s : SchedulerThreads)

/-! ## The source -/

def getDefaultThreadCount (hardwareConcurrency : ℕ) : ℕ :=
  if 0 < hardwareConcurrency then hardwareConcurrency else 4

/-- The constructor. -/
def new (kind : SchedulerKind) (hardwareConcurrency threadCount : ℕ) : SchedulerThreads where
  kind
  workerThreads :=
    if threadCount = 0 then getDefaultThreadCount hardwareConcurrency else threadCount

/-- `workers_.emplace_back`: another thread in `workerLoop`. -/
def spawn : SchedulerThreads :=
  { s with
    workers := s.workers ++ [s.spawned], live := s.live ++ [s.spawned], spawned := s.spawned + 1 }

def spawnMany : ℕ → SchedulerThreads
  | 0 => s
  | n + 1 => (spawnMany n).spawn

/-- `Start`, unless it would assign to a timer thread that runs, which is `std::terminate`. -/
def start : Option SchedulerThreads :=
  if s.workers ≠ [] then some { s with started := true }
  else if s.timerThread then none
  else
    let s := { s with stop := false, paused := false, timerRunning := true, started := true }
    some { s.spawnMany s.workerThreads with timerThread := true }

/-- `Stop`, which waits until the threads in `workers_` and that of the timers have left their
loops. -/
def stopThreads : SchedulerThreads :=
  { s with
    stop := true, paused := false, live := s.live.filter (· ∉ s.workers), workers := [],
    timerRunning := false, timerThread := false, started := false }

def setThreadPoolSize (size : ℕ) : SchedulerThreads :=
  if size = s.workerThreads then s
  else if s.workerThreads < size then
    { s.spawnMany (size - s.workerThreads) with workerThreads := size }
  else
    match s.kind with
    | .createDefault => s
    | .createScheduler => { s with workerThreads := size }

/-- `worker_threads` of `GetStats`. -/
def getStats : ℕ := s.workers.length

/-- One call, or one step of a worker. -/
def step : ConfigAction → Option SchedulerThreads
  | .setThreadPoolSize size => some (s.setThreadPoolSize size)
  | .start => s.start
  | .stop => some s.stopThreads
  | .leave thread =>
    if s.stop && thread ∈ s.live then some { s with live := s.live.erase thread } else none

/-- A scheduler, its workers and the thread that configures it. -/
def machine : Machine SchedulerThreads ConfigAction Unit where
  step s a := (s.step a).map fun s' => (s', ())

/-- **The configuration is consistent**: when the scheduler is started, the timer thread runs, as
many workers run as are configured and reported, and they are those that `Stop` joins. -/
def Consistent : Prop :=
  s.started = true → s.timerThread = true ∧ s.timerRunning = true
    ∧ s.live.length = s.workerThreads ∧ s.getStats = s.workerThreads
    ∧ ∀ thread, thread ∈ s.live ↔ thread ∈ s.workers

/-- No worker was added before `Start`, and none is given up by the class that does not have it
leave. -/
def InOrder (s : SchedulerThreads) : ConfigAction → Prop
  | .start => s.started = true ∨ s.workers = []
  | .setThreadPoolSize size =>
    s.kind = .createScheduler → s.started = true → s.workerThreads ≤ size
  | _ => True

/-! ## Threads that are added -/

variable {s}

theorem spawnMany_eq (n : ℕ) :
    s.spawnMany n = { s with
      workers := s.workers ++ List.range' s.spawned n,
      live := s.live ++ List.range' s.spawned n, spawned := s.spawned + n } := by
  induction n with
  | zero => rw [spawnMany, List.range'_zero, List.append_nil, List.append_nil, Nat.add_zero]
  | succ n ih =>
    rw [spawnMany, ih, spawn, List.range'_concat]
    simp only [List.append_assoc, Nat.one_mul, Nat.add_assoc]

/-- **What the calls make of the threads**, as long as they come in order. -/
structure Ordered (s : SchedulerThreads) : Prop where
  pos : 0 < s.workerThreads
  joined : ∀ thread ∈ s.live, thread ∈ s.workers
  running : s.stop = false → s.live = s.workers
  up : s.started = true → s.stop = false ∧ s.timerThread = true ∧ s.timerRunning = true
    ∧ s.workers.length = s.workerThreads
  down : s.started = false → s.timerThread = false

theorem ordered_new (kind : SchedulerKind) (hardwareConcurrency threadCount : ℕ) :
    (new kind hardwareConcurrency threadCount).Ordered where
  pos := by
    show 0 < if threadCount = 0 then getDefaultThreadCount hardwareConcurrency else threadCount
    unfold getDefaultThreadCount
    split
    · split <;> omega
    · omega
  joined := fun _ h => h
  running := fun _ => rfl
  up := fun h => Bool.noConfusion h
  down := fun _ => rfl

theorem Ordered.consistent (hs : s.Ordered) : s.Consistent := by
  intro hstarted
  obtain ⟨hstop, htimer, htimerRunning, hlength⟩ := hs.up hstarted
  have hlive := hs.running hstop
  exact ⟨htimer, htimerRunning, by rw [hlive, hlength], hlength, fun thread => by rw [hlive]⟩

/-- A scheduler that is started has workers. -/
theorem Ordered.workers_ne_nil (hs : s.Ordered) (hstarted : s.started = true) : s.workers ≠ [] := by
  obtain ⟨-, -, -, hlength⟩ := hs.up hstarted
  have hpos := hs.pos
  rw [← hlength] at hpos
  exact List.ne_nil_of_length_pos hpos

/-- `Start` starts the scheduler, or finds it started. -/
theorem Ordered.start (hs : s.Ordered) (hc : s.InOrder .start) :
    ∃ s', s.start = some s' ∧ s'.Ordered := by
  unfold SchedulerThreads.start
  rcases hc with hstarted | hnone
  · rw [if_pos (hs.workers_ne_nil hstarted)]
    exact ⟨_, rfl, hs.pos, hs.joined, hs.running, fun _ => hs.up hstarted,
      fun h => Bool.noConfusion h⟩
  · have hstarted : s.started = false := by
      rw [← Bool.not_eq_true]
      exact fun h => hs.workers_ne_nil h hnone
    have hlive : s.live = [] := by
      refine List.eq_nil_iff_forall_not_mem.mpr fun thread hthread => ?_
      have hin := hs.joined thread hthread
      rw [hnone] at hin
      cases hin
    rw [if_neg (not_not.mpr hnone), hs.down hstarted, if_neg Bool.false_ne_true]
    dsimp only
    rw [spawnMany_eq]
    refine ⟨_, rfl, hs.pos, fun thread hthread => ?_, fun _ => ?_, fun _ => ⟨rfl, rfl, rfl, ?_⟩,
      fun h => Bool.noConfusion h⟩
    · simpa [hlive, hnone] using hthread
    · show s.live ++ _ = s.workers ++ _
      rw [hlive, hnone]
    · show (s.workers ++ List.range' s.spawned s.workerThreads).length = s.workerThreads
      rw [hnone, List.nil_append, List.length_range']

theorem Ordered.stopThreads (hs : s.Ordered) : s.stopThreads.Ordered where
  pos := hs.pos
  joined := by
    intro thread hthread
    obtain ⟨hlive, hout⟩ := List.mem_filter.mp hthread
    exact absurd (hs.joined thread hlive) (of_decide_eq_true hout)
  running := fun h => Bool.noConfusion h
  up := fun h => Bool.noConfusion h
  down := fun _ => rfl

theorem Ordered.setThreadPoolSize (hs : s.Ordered) {size : ℕ+}
    (hc : s.InOrder (.setThreadPoolSize size)) : (s.setThreadPoolSize size).Ordered := by
  unfold SchedulerThreads.setThreadPoolSize
  split
  · exact hs
  split
  · rename_i hlt
    rw [spawnMany_eq]
    refine ⟨size.pos, fun thread hthread => ?_, fun hstop => ?_, fun hstarted => ?_, hs.down⟩
    · rcases List.mem_append.mp hthread with hold | hnew
      · exact List.mem_append_left _ (hs.joined thread hold)
      · exact List.mem_append_right _ hnew
    · show s.live ++ _ = s.workers ++ _
      rw [hs.running hstop]
    · obtain ⟨hstop, htimer, htimerRunning, hlength⟩ := hs.up hstarted
      refine ⟨hstop, htimer, htimerRunning, ?_⟩
      show (s.workers ++ List.range' s.spawned (size - s.workerThreads)).length = size
      rw [List.length_append, List.length_range', hlength]
      omega
  · rename_i hne hnlt
    split
    · exact hs
    · rename_i hkind
      refine ⟨size.pos, hs.joined, hs.running, fun hstarted => ?_, hs.down⟩
      have hle : s.workerThreads ≤ size := hc hkind hstarted
      omega

theorem Ordered.step (hs : s.Ordered) {a : ConfigAction} (hc : s.InOrder a)
    {s' : SchedulerThreads} (h : s.step a = some s') : s'.Ordered := by
  cases a with
  | setThreadPoolSize size =>
    cases h
    exact hs.setThreadPoolSize hc
  | start =>
    obtain ⟨t, ht, hordered⟩ := hs.start hc
    rw [SchedulerThreads.step, ht] at h
    cases h
    exact hordered
  | stop =>
    cases h
    exact hs.stopThreads
  | leave thread =>
    obtain ⟨hleave, h⟩ := Option.ite_none_right_eq_some.mp h
    cases h
    have hstop := (Bool.and_eq_true_iff.mp hleave).1
    refine ⟨hs.pos, fun t ht => hs.joined t (List.mem_of_mem_erase ht), fun hno => ?_,
      hs.up, hs.down⟩
    rw [show s.stop = false from hno] at hstop
    cases hstop

/-- A call that comes too early, or gives up workers that run, leaves the configuration
inconsistent. -/
theorem Ordered.not_consistent (hs : s.Ordered) {a : ConfigAction} (hc : ¬ s.InOrder a)
    {s' : SchedulerThreads} (h : s.step a = some s') : ¬ s'.Consistent := by
  intro hconsistent
  cases a with
  | setThreadPoolSize size =>
    simp only [InOrder, not_forall, not_le] at hc
    obtain ⟨hkind, hstarted, hlt⟩ := hc
    cases h
    rw [SchedulerThreads.setThreadPoolSize, if_neg hlt.ne, if_neg hlt.not_gt, hkind] at hconsistent
    obtain ⟨-, -, -, hstats, -⟩ := hconsistent hstarted
    obtain ⟨-, -, -, hlength⟩ := hs.up hstarted
    have hsize : s.workers.length = size := hstats
    omega
  | start =>
    simp only [InOrder, not_or, Bool.not_eq_true] at hc
    obtain ⟨hstarted, hworkers⟩ := hc
    rw [SchedulerThreads.step, SchedulerThreads.start, if_pos hworkers] at h
    cases h
    obtain ⟨htimer, -⟩ := hconsistent rfl
    have hdown := hs.down hstarted
    rw [show s.timerThread = true from htimer] at hdown
    cases hdown
  | stop => exact hc trivial
  | leave thread => exact hc trivial

theorem machine_step {a : ConfigAction} {r : SchedulerThreads × Unit}
    (h : machine.step s a = some r) : s.step a = some r.1 := by
  obtain ⟨s', hs', rfl⟩ := Option.map_eq_some_iff.mp h
  exact hs'

/-- **When the configuration is consistent.** In a run of a new scheduler of either class it is so
in every state exactly when each `Start` finds the scheduler started or without workers and, for
the class of `Factory::CreateScheduler`, no call of `SetThreadPoolSize` makes a started scheduler
smaller. -/
theorem consistent_iff_along (kind : SchedulerKind) (hardwareConcurrency threadCount : ℕ)
    (actions : List ConfigAction) :
    machine.Always Consistent (new kind hardwareConcurrency threadCount) actions
      ↔ machine.Along InOrder (new kind hardwareConcurrency threadCount) actions :=
  Machine.always_iff_along (fun _ hs => hs.consistent)
    (fun _ _ _ hs hc hr => hs.step hc (machine_step hr))
    (fun _ _ _ hs hc hr => hs.not_consistent hc (machine_step hr))
    (ordered_new kind hardwareConcurrency threadCount)

instance : DecidablePred Consistent := fun s =>
  decidable_of_iff (s.started = true → s.timerThread = true ∧ s.timerRunning = true
    ∧ s.live.length = s.workerThreads ∧ s.getStats = s.workerThreads
    ∧ (∀ thread ∈ s.live, thread ∈ s.workers) ∧ ∀ thread ∈ s.workers, thread ∈ s.live) <| by
    rw [Consistent, ← forall_and]
    simp only [iff_def]

/-- Four workers are asked for on a machine with two cores before `Start`, as the tests do: there
is no timer thread, and two workers run. -/
theorem start_after_setThreadPoolSize :
    ¬ machine.Always Consistent (new .createDefault 2 0) [.setThreadPoolSize 4, .start] := by
  decide

end SchedulerThreads
