import HttpServer.Machine
import HttpServer.Threads

/-!
# The queue of the event dispatcher

Asynchronous dispatch in `DefaultEventDispatcher` of `core/Event/event_dispatcher.cpp`:
`dispatchTask`, by which any number of threads put tasks into a bounded queue, the workers that
take them off it (`workerLoop`), and the destructor. `queue_mutex_` is a flag. A worker that
finds the predicate of its wait false blocks in a second step, which is when it lets go of the
mutex. The critical section of `dispatchTask` is one step, and its `notify_one` another; so are
the destructor's store to `stop_`, its `notify_all` and the joining of the workers, which is where
it returns. Neither the store nor the notification takes the mutex.

The model is of one worker at a time: `workerLoop` says what it does at its place to what is
shared, and `Proceeds` lists that once for all that follows. Between them the workers keep the
mutex (`Steps.guarded`), and none takes from an empty queue (`take_of_pop`).
-/

/-- Where a worker is in `workerLoop`. -/
inductive DispatchWorker (τ : Type*)
  /-- At `while (!stop_)`. -/
  | head
  /-- About to lock the mutex: behind the head of the loop, or notified. -/
  | lock
  /-- About to evaluate the predicate of the wait. -/
  | check
  /-- The predicate was false: about to block. -/
  | block
  /-- Blocked, without the mutex. -/
  | blocked
  /-- At `stop_ && task_queue_.empty()`. -/
  | test
  /-- About to take the first task. -/
  | pop
  /-- Executing a task, without the mutex. -/
  | running (t : τ)
  /-- Out of the loop. -/
  | exited
  deriving DecidableEq

/-- How far the destructor has come. -/
inductive Teardown
  | alive
  /-- It has stored `stop_`. -/
  | stopping
  /-- It has called `notify_all`. -/
  | notified
  /-- It has joined the workers. -/
  | returned
  deriving DecidableEq

/-- The queue with its workers, and how many threads have put a task into it and have yet to call
`notify_one`. -/
structure DispatchQueue (τ : Type*) where
  taskQueue : List τ := []
  /-- `queue_mutex_` is held by a worker. -/
  locked : Bool := false
  teardown : Teardown := .alive
  maxQueueSize : ℕ
  workers : List (DispatchWorker τ)
  notifyOnes : ℕ := 0
  deriving DecidableEq

/-- What comes of a task. -/
inductive DispatchEvent (τ : Type*)
  | pushed (t : τ)
  | dropped (t : τ)
  | executed (t : τ)
  deriving DecidableEq

/-- What a thread does next. -/
inductive DispatchAction (τ : Type*)
  /-- `dispatchTask` up to its notification. -/
  | dispatchTask (t : τ)
  /-- Its `notify_one`, which wakes this worker. -/
  | notifyOne (woken : Option ℕ)
  /-- The destructor stores `stop_`. -/
  | storeStop
  /-- The destructor's `notify_all`. -/
  | notifyAll
  /-- The destructor has joined all workers. -/
  | join
  /-- The next step of this worker, unless it executes a task. -/
  | worker (i : ℕ)
  /-- The task of this worker returns. -/
  | execute (i : ℕ)
  /-- This worker wakes up without having been notified. -/
  | spuriousWakeup (i : ℕ)
  deriving DecidableEq

namespace DispatchWorker

variable {τ : Type*}

/-- The task in a worker's hands. -/
def task : DispatchWorker τ → Option τ
  | .running t => some t
  | _ => none

def isBlocked : DispatchWorker τ → Bool
  | .blocked => true
  | _ => false

def hasExited : DispatchWorker τ → Bool
  | .exited => true
  | _ => false

/-- It holds the mutex. -/
def holds : DispatchWorker τ → Bool
  | .check | .block | .test | .pop => true
  | _ => false

/-- What `notify_all` does to a worker. -/
def wake : DispatchWorker τ → DispatchWorker τ
  | .blocked => .lock
  | w => w

@[simp] theorem holds_wake (w : DispatchWorker τ) : w.wake.holds = w.holds := by
  cases w <;> rfl

end DispatchWorker

namespace DispatchQueue

variable {τ : Type*} (s : DispatchQueue τ)

/-! ## The source -/

/-- A dispatcher with asynchronous dispatch and so many workers. -/
def started (workers maxQueueSize : ℕ) : DispatchQueue τ :=
  { maxQueueSize, workers := List.replicate workers .head }

/-- `stop_` -/
def stop : Bool := s.teardown ≠ .alive

def setWorker (i : ℕ) (w : DispatchWorker τ) : DispatchQueue τ :=
  { s with workers := s.workers.set i w }

/-- What a worker does next, and where it gets to. -/
def workerLoop : DispatchWorker τ → Option (DispatchQueue τ × DispatchWorker τ)
  | .head => some (s, if s.stop then .exited else .lock)
  | .lock => if s.locked then none else some ({ s with locked := true }, .check)
  | .check => some (s, if !s.taskQueue.isEmpty || s.stop then .test else .block)
  | .block => some ({ s with locked := false }, .blocked)
  | .test =>
    if s.stop && s.taskQueue.isEmpty then some ({ s with locked := false }, .exited)
    else some (s, .pop)
  | .pop =>
    match s.taskQueue with
    | [] => none
    | t :: taskQueue => some ({ s with taskQueue, locked := false }, .running t)
  | .blocked | .running _ | .exited => none

/-- `dispatchTask`, where `async_dispatch_` is set, up to its notification. -/
def dispatchTask (t : τ) : DispatchQueue τ × DispatchEvent τ :=
  if 0 < s.maxQueueSize ∧ s.maxQueueSize ≤ s.taskQueue.length then (s, .dropped t)
  else ({ s with taskQueue := s.taskQueue ++ [t], notifyOnes := s.notifyOnes + 1 }, .pushed t)

/-- A blocked worker wakes up. -/
def wakeUp (j : ℕ) : Option (DispatchQueue τ) :=
  s.workers[j]?.bind fun w => if w.isBlocked then some (s.setWorker j .lock) else none

/-- `notify_one`: one of the blocked workers wakes up, if there is any. -/
def wakeOne (woken : Option ℕ) : Option (DispatchQueue τ) :=
  match woken with
  | none => if s.workers.any DispatchWorker.isBlocked then none else some s
  | some j => s.wakeUp j

/-- One step of one of the threads. Once the destructor has returned there is nothing left. -/
def step : DispatchAction τ → Option (DispatchQueue τ × Option (DispatchEvent τ))
  | .dispatchTask t =>
    if s.locked ∨ s.teardown = .returned then none
    else some ((s.dispatchTask t).1, some (s.dispatchTask t).2)
  | .notifyOne woken =>
    if s.notifyOnes = 0 ∨ s.teardown = .returned then none
    else (s.wakeOne woken).map fun s => ({ s with notifyOnes := s.notifyOnes - 1 }, none)
  | .storeStop =>
    if s.teardown = .alive then some ({ s with teardown := .stopping }, none) else none
  | .notifyAll =>
    if s.teardown = .stopping then
      some ({ s with teardown := .notified, workers := s.workers.map DispatchWorker.wake }, none)
    else none
  | .join =>
    if s.teardown = .notified ∧ s.workers.all DispatchWorker.hasExited then
      some ({ s with teardown := .returned }, none)
    else none
  | .worker i =>
    s.workers[i]?.bind fun w => (s.workerLoop w).map fun r => (r.1.setWorker i r.2, none)
  | .execute i =>
    s.workers[i]?.bind fun w => w.task.map fun t => (s.setWorker i .head, some (.executed t))
  | .spuriousWakeup i => (s.wakeUp i).map fun s => (s, none)

/-- The queue, its workers, and those who use it. -/
def machine (τ : Type*) :
    Machine (DispatchQueue τ) (DispatchAction τ) (Option (DispatchEvent τ)) where
  step := step

/-! ## What a step does -/

variable {s}

/-- What a worker can do at its place. -/
inductive Proceeds (s : DispatchQueue τ) :
    DispatchWorker τ → DispatchQueue τ → DispatchWorker τ → Prop
  | leave (h : s.stop = true) : Proceeds s .head s .exited
  | enter (h : s.stop = false) : Proceeds s .head s .lock
  | lock (h : s.locked = false) : Proceeds s .lock { s with locked := true } .check
  | ready (h : s.taskQueue ≠ [] ∨ s.stop = true) : Proceeds s .check s .test
  | wait (hempty : s.taskQueue = []) (h : s.stop = false) : Proceeds s .check s .block
  | block : Proceeds s .block { s with locked := false } .blocked
  | finish (h : s.stop = true) (hempty : s.taskQueue = []) :
    Proceeds s .test { s with locked := false } .exited
  | goOn (h : s.stop = false ∨ s.taskQueue ≠ []) : Proceeds s .test s .pop
  | pop {t : τ} {taskQueue : List τ} (h : s.taskQueue = t :: taskQueue) :
    Proceeds s .pop { s with taskQueue, locked := false } (.running t)

theorem Proceeds.workers_eq {s' : DispatchQueue τ} {w w' : DispatchWorker τ}
    (hp : s.Proceeds w s' w') :
    s'.workers = s.workers := by
  cases hp <;> rfl

theorem Proceeds.teardown_eq {s' : DispatchQueue τ} {w w' : DispatchWorker τ}
    (hp : s.Proceeds w s' w') :
    s'.teardown = s.teardown := by
  cases hp <;> rfl

theorem proceeds_of_workerLoop {w : DispatchWorker τ} {r : DispatchQueue τ × DispatchWorker τ}
    (h : s.workerLoop w = some r) : s.Proceeds w r.1 r.2 := by
  cases w with
  | head =>
    cases h
    cases hstop : s.stop with
    | true => exact .leave hstop
    | false => exact .enter hstop
  | lock =>
    obtain ⟨hfree, h⟩ := Option.ite_none_left_eq_some.mp h
    cases h
    exact .lock (Bool.not_eq_true _ ▸ hfree)
  | check =>
    cases h
    cases hstop : s.stop with
    | true =>
      rw [Bool.or_true]
      exact .ready (Or.inr hstop)
    | false =>
      rw [Bool.or_false]
      cases hempty : s.taskQueue with
      | nil => exact .wait hempty hstop
      | cons t taskQueue => exact .ready (Or.inl (by rw [hempty]; exact List.cons_ne_nil _ _))
  | block =>
    cases h
    exact .block
  | test =>
    have h : (if s.stop && s.taskQueue.isEmpty then some ({ s with locked := false }, .exited)
      else some (s, .pop)) = some r := h
    split at h
    · rename_i hboth
      rw [Bool.and_eq_true, List.isEmpty_iff] at hboth
      cases h
      exact .finish hboth.1 hboth.2
    · rename_i hboth
      rw [Bool.and_eq_true, List.isEmpty_iff, not_and_or, Bool.not_eq_true] at hboth
      cases h
      exact .goOn hboth
  | pop =>
    cases hqueue : s.taskQueue with
    | nil =>
      simp only [workerLoop, hqueue] at h
      cases h
    | cons t taskQueue =>
      simp only [workerLoop, hqueue] at h
      cases h
      exact .pop hqueue
  | blocked => cases h
  | running t => cases h
  | exited => cases h

/-- **What a step of the whole does.** -/
inductive Steps (s : DispatchQueue τ) :
    DispatchAction τ → DispatchQueue τ → Option (DispatchEvent τ) → Prop
  | drop (t : τ) (hfull : 0 < s.maxQueueSize ∧ s.maxQueueSize ≤ s.taskQueue.length) :
    Steps s (.dispatchTask t) s (some (.dropped t))
  | push (t : τ) (hfree : s.locked = false)
      (hroom : ¬ (0 < s.maxQueueSize ∧ s.maxQueueSize ≤ s.taskQueue.length)) :
    Steps s (.dispatchTask t)
      { s with taskQueue := s.taskQueue ++ [t], notifyOnes := s.notifyOnes + 1 }
      (some (.pushed t))
  | storeStop (h : s.teardown = .alive) : Steps s .storeStop { s with teardown := .stopping } none
  | notifyAll (h : s.teardown = .stopping) :
    Steps s .notifyAll
      { s with teardown := .notified, workers := s.workers.map DispatchWorker.wake } none
  | join (h : s.teardown = .notified) (hexited : ∀ w ∈ s.workers, w = .exited) :
    Steps s .join { s with teardown := .returned } none
  | worker {i : ℕ} {w w' : DispatchWorker τ} {s' : DispatchQueue τ} (hw : s.workers[i]? = some w)
      (hp : s.Proceeds w s' w') : Steps s (.worker i) (s'.setWorker i w') none
  | execute {i : ℕ} {t : τ} (hw : s.workers[i]? = some (.running t)) :
    Steps s (.execute i) (s.setWorker i .head) (some (.executed t))
  | notified {i : ℕ} (hw : s.workers[i]? = some .blocked) :
    Steps s (.notifyOne (some i))
      { s.setWorker i .lock with notifyOnes := s.notifyOnes - 1 } none
  | unheard : Steps s (.notifyOne none) { s with notifyOnes := s.notifyOnes - 1 } none
  | spurious {i : ℕ} (hw : s.workers[i]? = some .blocked) :
    Steps s (.spuriousWakeup i) (s.setWorker i .lock) none

theorem eq_blocked_of_isBlocked {w : DispatchWorker τ} (h : w.isBlocked = true) : w = .blocked := by
  cases w with
  | blocked => rfl
  | _ => cases h

theorem eq_exited_of_hasExited {w : DispatchWorker τ} (h : w.hasExited = true) : w = .exited := by
  cases w with
  | exited => rfl
  | _ => cases h

theorem wakeUp_eq_some {j : ℕ} {s' : DispatchQueue τ} (h : s.wakeUp j = some s') :
    s.workers[j]? = some .blocked ∧ s' = s.setWorker j .lock := by
  obtain ⟨w, hw, hwake⟩ := Option.bind_eq_some_iff.mp h
  obtain ⟨hblocked, he⟩ := Option.ite_none_right_eq_some.mp hwake
  rw [hw, eq_blocked_of_isBlocked hblocked]
  exact ⟨rfl, (Option.some.inj he).symm⟩

theorem steps_of_step {a : DispatchAction τ} {r : DispatchQueue τ × Option (DispatchEvent τ)}
    (h : s.step a = some r) : s.Steps a r.1 r.2 := by
  cases a with
  | dispatchTask t =>
    obtain ⟨hfree, h⟩ := Option.ite_none_left_eq_some.mp h
    obtain rfl := Option.some.inj h
    unfold dispatchTask
    split
    · exact .drop t ‹_›
    · exact .push t (Bool.not_eq_true _ ▸ (not_or.mp hfree).1) ‹_›
  | notifyOne woken =>
    obtain ⟨-, h⟩ := Option.ite_none_left_eq_some.mp h
    obtain ⟨s', hs', rfl⟩ := Option.map_eq_some_iff.mp h
    cases woken with
    | none =>
      obtain ⟨-, he⟩ := Option.ite_none_left_eq_some.mp hs'
      cases he
      exact .unheard
    | some j =>
      obtain ⟨hj, rfl⟩ := wakeUp_eq_some hs'
      exact .notified hj
  | storeStop =>
    obtain ⟨halive, h⟩ := Option.ite_none_right_eq_some.mp h
    cases h
    exact .storeStop halive
  | notifyAll =>
    obtain ⟨hstopping, h⟩ := Option.ite_none_right_eq_some.mp h
    cases h
    exact .notifyAll hstopping
  | join =>
    obtain ⟨⟨hnotified, hall⟩, h⟩ := Option.ite_none_right_eq_some.mp h
    cases h
    exact .join hnotified fun w hw => eq_exited_of_hasExited (List.all_eq_true.mp hall w hw)
  | worker i =>
    obtain ⟨w, hw, h⟩ := Option.bind_eq_some_iff.mp h
    obtain ⟨q, hq, rfl⟩ := Option.map_eq_some_iff.mp h
    exact .worker hw (proceeds_of_workerLoop hq)
  | execute i =>
    obtain ⟨w, hw, h⟩ := Option.bind_eq_some_iff.mp h
    obtain ⟨t, ht, rfl⟩ := Option.map_eq_some_iff.mp h
    cases w with
    | running t' =>
      cases ht
      exact .execute hw
    | _ => cases ht
  | spuriousWakeup i =>
    obtain ⟨s', hs', rfl⟩ := Option.map_eq_some_iff.mp h
    obtain ⟨hi, rfl⟩ := wakeUp_eq_some hs'
    exact .spurious hi

/-! ## The mutex -/

/-- What a worker has found out under the mutex. -/
def Found (s : DispatchQueue τ) : DispatchWorker τ → Prop
  | .test => s.taskQueue ≠ [] ∨ s.stop = true
  | .pop => s.taskQueue ≠ []
  | _ => True

/-- **The mutex does what it is for**: one worker holds it, or none, and what that one has found
out stays so. -/
structure Guarded (s : DispatchQueue τ) : Prop where
  locked_eq : s.workers.countP DispatchWorker.holds = s.locked.toNat
  found : ∀ w ∈ s.workers, s.Found w

theorem found_of_not_holds (s : DispatchQueue τ) {w : DispatchWorker τ} (h : w.holds = false) :
    s.Found w := by
  cases w with
  | test | pop => cases h
  | _ => trivial

theorem Found.mono {s' : DispatchQueue τ} {w : DispatchWorker τ} (h : s.Found w)
    (hqueue : s.taskQueue ≠ [] → s'.taskQueue ≠ []) (hstop : s.stop = true → s'.stop = true) :
    s'.Found w := by
  cases w with
  | test => exact h.imp hqueue hstop
  | pop => exact hqueue h
  | _ => trivial

theorem Guarded.of_started (workers maxQueueSize : ℕ) :
    (started workers maxQueueSize : DispatchQueue τ).Guarded where
  locked_eq := by
    refine List.countP_eq_zero.mpr fun w hw => ?_
    rw [List.eq_of_mem_replicate hw]
    exact Bool.false_ne_true
  found w hw := by
    rw [List.eq_of_mem_replicate hw]
    trivial

/-- A worker that has not got the mutex, and does not get it, moves on. -/
theorem Guarded.setWorker (h : s.Guarded) {i : ℕ} {w w' : DispatchWorker τ}
    (hw : s.workers[i]? = some w) (hbefore : w.holds = false) (hafter : w'.holds = false) :
    (s.setWorker i w').Guarded where
  locked_eq := by
    have hcount := Threads.countP_set_add DispatchWorker.holds hw w'
    rw [hbefore, hafter] at hcount
    exact hcount.trans h.locked_eq
  found := Threads.forall_mem_set h.found (found_of_not_holds _ hafter) i

theorem Guarded.locked_of_holds (h : s.Guarded) {w : DispatchWorker τ} (hw : w ∈ s.workers)
    (hholds : w.holds = true) : s.locked = true := by
  have hpos : 0 < s.workers.countP DispatchWorker.holds :=
    List.countP_pos_iff.mpr ⟨w, hw, hholds⟩
  rw [h.locked_eq] at hpos
  by_contra hfree
  rw [Bool.eq_false_iff.mpr hfree] at hpos
  exact absurd hpos (Nat.lt_irrefl 0)

/-- The worker that holds the mutex goes on, and keeps it or lets it go. -/
theorem Guarded.proceed (h : s.Guarded) {i : ℕ} {w w' : DispatchWorker τ}
    (hw : s.workers[i]? = some w) (hholds : w.holds = true) {s' : DispatchQueue τ}
    (hworkers : s'.workers = s.workers) (hlocked : s'.locked = w'.holds)
    (hfound : s'.Found w') : (s'.setWorker i w').Guarded := by
  obtain ⟨rest, hrest, hset⟩ := Threads.exists_others hw
  have hone : s.workers.countP DispatchWorker.holds ≤ 1 := by
    rw [h.locked_eq]
    exact Bool.toNat_le _
  have hothers := Threads.eq_false_of_countP_le_one hrest hholds hone
  have hperm : (s'.workers.set i w').Perm (w' :: rest) := hworkers ▸ hset w'
  refine ⟨?_, fun v hv => ?_⟩
  · have hzero : rest.countP DispatchWorker.holds = 0 :=
      List.countP_eq_zero.mpr fun v hv => Bool.eq_false_iff.mp (hothers v hv)
    show (s'.workers.set i w').countP DispatchWorker.holds = s'.locked.toNat
    rw [hperm.countP_eq, List.countP_cons, hzero, hlocked]
    cases w'.holds <;> rfl
  · obtain rfl | hv := List.mem_cons.mp (hperm.mem_iff.mp hv)
    · exact hfound
    · exact found_of_not_holds _ (hothers v hv)

theorem Proceeds.guarded {i : ℕ} {w w' : DispatchWorker τ} {s' : DispatchQueue τ}
    (hp : s.Proceeds w s' w') (hw : s.workers[i]? = some w) (h : s.Guarded) :
    (s'.setWorker i w').Guarded := by
  have hmem := List.mem_of_getElem? hw
  cases hp with
  | leave hstop => exact h.setWorker hw rfl rfl
  | enter hstop => exact h.setWorker hw rfl rfl
  | lock hfree =>
    refine ⟨?_, ?_⟩
    · have hcount := Threads.countP_set_add DispatchWorker.holds hw .check
      rw [h.locked_eq, hfree] at hcount
      exact hcount
    · have hnothing : s.Found .check := trivial
      exact Threads.forall_mem_set h.found hnothing i
  | ready hready => exact h.proceed hw rfl rfl (h.locked_of_holds hmem rfl) hready
  | wait hempty hstop => exact h.proceed hw rfl rfl (h.locked_of_holds hmem rfl) trivial
  | block => exact h.proceed hw rfl rfl rfl trivial
  | finish hstop hempty => exact h.proceed hw rfl rfl rfl trivial
  | goOn hgo =>
    -- that the predicate was true is known since it was evaluated
    have hqueue : s.taskQueue ≠ [] := by
      obtain hstop | hqueue := hgo
      · exact (h.found .test hmem).resolve_right fun hs => by simp [hstop] at hs
      · exact hqueue
    exact h.proceed hw rfl rfl (h.locked_of_holds hmem rfl) hqueue
  | pop hqueue => exact h.proceed hw rfl rfl rfl trivial

theorem Steps.guarded {a : DispatchAction τ} {e : Option (DispatchEvent τ)} {s' : DispatchQueue τ}
    (hs : s.Steps a s' e) (h : s.Guarded) : s'.Guarded := by
  cases hs with
  | drop t hfull => exact h
  | push t hfree hroom =>
    exact ⟨h.locked_eq, fun w hw => (h.found w hw).mono (fun _ => by simp) id⟩
  | storeStop halive =>
    exact ⟨h.locked_eq, fun w hw => (h.found w hw).mono id fun _ => rfl⟩
  | notifyAll hstopping =>
    refine ⟨?_, fun w hw => ?_⟩
    · show (s.workers.map DispatchWorker.wake).countP DispatchWorker.holds = s.locked.toNat
      rw [List.countP_map, ← h.locked_eq]
      exact List.countP_congr fun w _ => by rw [Function.comp_apply, DispatchWorker.holds_wake]
    · obtain ⟨v, hv, rfl⟩ := List.mem_map.mp hw
      cases v with
      | test => exact Or.inr rfl
      | pop => exact h.found .pop hv
      | _ => trivial
  | join hn hexited =>
    exact ⟨h.locked_eq, fun w hw => (h.found w hw).mono id fun _ => rfl⟩
  | worker hw hp => exact hp.guarded hw h
  | execute hw => exact h.setWorker hw rfl rfl
  | notified hw =>
    have hnext : (s.setWorker _ .lock).Guarded := h.setWorker hw rfl rfl
    exact ⟨hnext.locked_eq, hnext.found⟩
  | unheard => exact ⟨h.locked_eq, h.found⟩
  | spurious hw => exact h.setWorker hw rfl rfl

/-- **`front` is never called on an empty queue**, and a worker that gets to take a task takes
one. -/
theorem take_of_pop {workers maxQueueSize : ℕ} {as : List (DispatchAction τ)}
    {os : List (Option (DispatchEvent τ))}
    (hr : (machine τ).run (started workers maxQueueSize) as = some (s, os)) {i : ℕ}
    (hw : s.workers[i]? = some .pop) : ∃ r, s.step (.worker i) = some r := by
  have hguarded : s.Guarded :=
    Machine.run_invariant (I := fun s _ => s.Guarded) (.of_started workers maxQueueSize)
      (fun s' _ a r h hstep => (steps_of_step hstep).guarded h) hr
  have hqueue : s.taskQueue ≠ [] := hguarded.found .pop (List.mem_of_getElem? hw)
  obtain ⟨t, taskQueue, hcons⟩ := List.exists_cons_of_ne_nil hqueue
  refine ⟨(({ s with taskQueue, locked := false } : DispatchQueue τ).setWorker i (.running t),
    none), ?_⟩
  rw [step, hw, Option.bind_some, workerLoop, hcons]
  rfl

end DispatchQueue
