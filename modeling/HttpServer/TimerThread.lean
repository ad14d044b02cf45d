import HttpServer.Machine
import HttpServer.Scheduler

/-!
# The timer thread

`timerLoop` of the two classes named `ThreadPoolScheduler`, in `core/Async/async_scheduler.cpp`
and `async_scheduler_impl.cpp`, interleaved with the threads that call `ScheduleAfter` and
`ScheduleEvery`, with a `Stop` and with the clock. Of `Stop` there is its store to
`timer_running_`; the model ends where it joins the thread. Timers that are scheduled before
`Start` are those of a run in which the thread has not moved yet.

What runs under `timer_mutex_` is one step: what an iteration finds in the queue, with its reading
of the clock, up to where it lets go of the mutex or blocks; the `push` of a call, and the store of
`Stop`. Making a timer, putting it into the queue and notifying are three steps of a call, and
between the queue and `ScheduleTask` a timer is in the hands of the loop.

The queue is a heap. All that is known of its first timer is that none is greater by `operator<`,
which is the other way round; which of the timers that expire at the same time it is, is up to the
run. Times are what the clock has, 64 bits of nanoseconds; a sum that does not fit wraps around,
as the compiled code does, where the language leaves it undefined. An `id` is a number that no
other timer has, and does not wrap around: nothing in the source reads it, and the proofs tell
timers apart by it.
-/

/-- A timer. -/
structure TimerThread.TimerTask (τ : Type*) where
  /-- The function, if it is not an empty one. -/
  func : Option τ
  /-- The point in time, in nanoseconds. -/
  expire : Int64
  /-- In milliseconds, `0` for one that is not periodic. -/
  interval : Int64
  id : ℕ
  deriving DecidableEq

/-- Where the thread is in `timerLoop`. -/
inductive TimerThread.Place (τ : Type*)
  /-- At `while (timer_running_)`. -/
  | head
  /-- In an iteration, about to lock the mutex and look. -/
  | lock
  /-- Blocked in `wait`, or in `wait_for` up to a point in time. -/
  | blocked (deadline : Option Int64)
  /-- Notified there, or at the end of its time. -/
  | woken (deadline : Option Int64)
  /-- About to submit this timer, which was due by this reading of the clock. -/
  | submit (t : TimerThread.TimerTask τ) (now : Int64)
  /-- About to put this timer into the queue again. -/
  | reschedule (t : TimerThread.TimerTask τ) (now : Int64)
  | exited
  deriving DecidableEq

/-- The timers, the thread and the clock. -/
structure TimerThread (τ : Type*) where
  timerQueue : List (TimerThread.TimerTask τ) := []
  timerRunning : Bool := true
  place : TimerThread.Place τ := .head
  /-- The timers of the calls that have yet to put theirs into the queue. -/
  calls : List (TimerThread.TimerTask τ) := []
  /-- The calls that have yet to notify. -/
  notifyOnes : ℕ := 0
  /-- What the clock reads. -/
  clock : Int64
  nextTimerId : ℕ := 0
  deriving DecidableEq

namespace TimerThread

variable {τ : Type*}

/-- What happens to a timer, to the thread, or to a function that is not to wait. -/
inductive Event (τ : Type*)
  /-- It has been submitted by the call. -/
  | submittedAtOnce (task : Option τ)
  /-- The timer has been made, at this reading of the clock and with this delay. -/
  | scheduled (t : TimerTask τ) (now delay : Int64)
  | pushed (t : TimerTask τ)
  /-- The thread has begun an iteration. -/
  | iteration
  | popped (t : TimerTask τ)
  /-- The function of the timer has been submitted, when the clock read this. -/
  | submitted (t : TimerTask τ) (now : Int64)
  /-- The timer has no function, and is let go of. -/
  | dropped (t : TimerTask τ)
  | stopRequested
  | spurious
  deriving DecidableEq

/-- What a thread does next, or the clock. -/
inductive Action (τ : Type*)
  /-- `ScheduleAfter` up to its `push`. -/
  | scheduleAfter (task : Option τ) (delay : Int64)
  /-- `ScheduleEvery` up to its `push`. -/
  | scheduleEvery (task : Option τ) (interval : Int64)
  /-- The `push` of one of the calls. -/
  | push (i : ℕ)
  /-- The `notify_one` of one of the calls. -/
  | notifyOne
  /-- The next step of the thread, with this one as the first timer of the heap. -/
  | timerLoop (top : ℕ)
  /-- The store of `Stop`, which notifies under the mutex. -/
  | stop
  | spuriousWakeup
  /-- The time of a `wait_for` is over. -/
  | timeout
  | tick (now : Int64)
  deriving DecidableEq

/-! ## The source -/

variable (s : TimerThread τ)

/-- A thread that has just been started. -/
def started (clock : Int64) : TimerThread τ := { clock }

/-- Milliseconds in the unit of the clock. -/
def nanoseconds (milliseconds : Int64) : Int64 := milliseconds * 1000000

/-- `operator<`: the timer that expires later is the smaller one. -/
def TimerTask.lt (t u : TimerTask τ) : Bool := u.expire < t.expire

/-- A timer with the next `id`. -/
def newTimer (func : Option τ) (now delay interval : Int64) : TimerTask τ :=
  { func, expire := now + nanoseconds delay, interval, id := s.nextTimerId + 1 }

/-- A call up to its `push`. -/
def schedule (task : Option τ) (delay interval : Int64) : TimerThread τ × List (Event τ) :=
  if delay ≤ 0 then (s, [.submittedAtOnce task])
  else
    let t := s.newTimer task s.clock delay interval
    ({ s with calls := s.calls ++ [t], nextTimerId := s.nextTimerId + 1 },
      [.scheduled t s.clock delay])

def scheduleAfter (task : Option τ) (delay : Int64) : TimerThread τ × List (Event τ) :=
  s.schedule task delay 0

def scheduleEvery (task : Option τ) (interval : Int64) : TimerThread τ × List (Event τ) :=
  s.schedule task interval interval

/-- The predicate of both waits. -/
def predicate : Bool := !s.timerRunning || !s.timerQueue.isEmpty

/-- Where a wait leads to that has just been begun or woken: behind it, if the predicate is true
or its time is over. Behind `wait` there is another test of `timer_running_`. -/
def await (deadline : Option Int64) : Place τ :=
  if s.predicate || deadline.any (· ≤ s.clock) then
    if deadline.isNone && !s.timerRunning then .exited else .head
  else .blocked deadline

/-- What an iteration does under the mutex. -/
def look (top : ℕ) : Option (TimerThread τ × List (Event τ)) :=
  if s.timerQueue.isEmpty then some ({ s with place := s.await none }, [])
  else s.timerQueue[top]?.bind fun t =>
    if s.timerQueue.any t.lt then none
    else if t.expire ≤ s.clock then
      some ({ s with timerQueue := s.timerQueue.eraseIdx top, place := .submit t s.clock },
        [.popped t])
    else
      let waitTime := t.expire - s.clock
      some ({ s with place := s.await (some (s.clock + waitTime)) }, [])

/-- `ScheduleTask`, unless the function is empty. Only one of the classes goes on with a timer that
is periodic. -/
def submit (kind : SchedulerKind) (t : TimerTask τ) (now : Int64) :
    TimerThread τ × List (Event τ) :=
  let place := match kind with
    | .createDefault => .head
    | .createScheduler =>
      if 0 < t.interval && t.func.isSome then .reschedule t now else .head
  ({ s with place }, [if t.func.isSome then .submitted t s.clock else .dropped t])

/-- A timer with the same function is put into the queue. The notification is for nobody: no other
thread waits for timers. -/
def reschedule (t : TimerTask τ) (now : Int64) : TimerThread τ × List (Event τ) :=
  let newTask := s.newTimer t.func now t.interval t.interval
  ({ s with
      timerQueue := newTask :: s.timerQueue, nextTimerId := s.nextTimerId + 1, place := .head },
    [.scheduled newTask now t.interval, .pushed newTask])

/-- What the thread does next. -/
def timerLoop (kind : SchedulerKind) (top : ℕ) : Option (TimerThread τ × List (Event τ)) :=
  match s.place with
  | .head =>
    if s.timerRunning then some ({ s with place := .lock }, [.iteration])
    else some ({ s with place := .exited }, [])
  | .lock => s.look top
  | .woken deadline => some ({ s with place := s.await deadline }, [])
  | .submit t now => some (s.submit kind t now)
  | .reschedule t now => some (s.reschedule t now)
  | .blocked _ | .exited => none

/-- The thread wakes up, if it is blocked. -/
def Place.wake : Place τ → Place τ
  | .blocked deadline => .woken deadline
  | place => place

def wake : TimerThread τ := { s with place := s.place.wake }

/-- One step of one of the threads, or of the clock. -/
def step (kind : SchedulerKind) : Action τ → Option (TimerThread τ × List (Event τ))
  | .scheduleAfter task delay => some (s.scheduleAfter task delay)
  | .scheduleEvery task interval => some (s.scheduleEvery task interval)
  | .push i => s.calls[i]?.map fun t =>
    ({ s with
        timerQueue := t :: s.timerQueue, calls := s.calls.eraseIdx i,
        notifyOnes := s.notifyOnes + 1 }, [.pushed t])
  | .notifyOne =>
    if s.notifyOnes = 0 then none
    else some ({ s.wake with notifyOnes := s.notifyOnes - 1 }, [])
  | .timerLoop top => s.timerLoop kind top
  | .stop => some ({ s.wake with timerRunning := false }, [.stopRequested])
  | .spuriousWakeup =>
    match s.place with
    | .blocked _ => some (s.wake, [.spurious])
    | _ => none
  | .timeout =>
    match s.place with
    | .blocked (some deadline) => if deadline ≤ s.clock then some (s.wake, []) else none
    | _ => none
  | .tick now => if s.clock ≤ now then some ({ s with clock := now }, []) else none

/-- The thread with those who use it. -/
def machine (τ : Type*) (kind : SchedulerKind) :
    Machine (TimerThread τ) (Action τ) (List (Event τ)) where
  step s := s.step kind

/-! ## What a step does -/

variable {s} {kind : SchedulerKind}

/-- A call of one of the two functions. -/
def Action.IsCall (a : Action τ) (task : Option τ) (delay interval : Int64) : Prop :=
  a = .scheduleAfter task delay ∧ interval = 0 ∨ a = .scheduleEvery task delay ∧ interval = delay

/-- The first timer of the heap expires no later than any of them. -/
def Earliest (s : TimerThread τ) (t : TimerTask τ) : Prop :=
  t ∈ s.timerQueue ∧ ∀ u ∈ s.timerQueue, t.expire ≤ u.expire

/-- **What a step does.** -/
inductive Steps (kind : SchedulerKind) (s : TimerThread τ) :
    Action τ → TimerThread τ → List (Event τ) → Prop
  | atOnce {a : Action τ} {task : Option τ} {delay interval : Int64}
      (hcall : a.IsCall task delay interval) (h : delay ≤ 0) :
    Steps kind s a s [.submittedAtOnce task]
  | call {a : Action τ} {task : Option τ} {delay interval : Int64}
      (hcall : a.IsCall task delay interval) (h : 0 < delay) :
    Steps kind s a
      { s with
        calls := s.calls ++ [s.newTimer task s.clock delay interval],
        nextTimerId := s.nextTimerId + 1 }
      [.scheduled (s.newTimer task s.clock delay interval) s.clock delay]
  | push {i : ℕ} {t : TimerTask τ} (h : s.calls[i]? = some t) :
    Steps kind s (.push i)
      { s with
        timerQueue := t :: s.timerQueue, calls := s.calls.eraseIdx i,
        notifyOnes := s.notifyOnes + 1 }
      [.pushed t]
  | notify (h : 0 < s.notifyOnes) :
    Steps kind s .notifyOne { s.wake with notifyOnes := s.notifyOnes - 1 } []
  | enter (top : ℕ) (hplace : s.place = .head) (h : s.timerRunning = true) :
    Steps kind s (.timerLoop top) { s with place := .lock } [.iteration]
  | leave (top : ℕ) (hplace : s.place = .head) (h : s.timerRunning = false) :
    Steps kind s (.timerLoop top) { s with place := .exited } []
  | wait (top : ℕ) (hplace : s.place = .lock) (hempty : s.timerQueue = []) :
    Steps kind s (.timerLoop top)
      { s with place := if s.timerRunning then .blocked none else .exited } []
  | pop {top : ℕ} {t : TimerTask τ} (hplace : s.place = .lock)
      (htop : s.timerQueue[top]? = some t) (hearliest : s.Earliest t) (hdue : t.expire ≤ s.clock) :
    Steps kind s (.timerLoop top)
      { s with timerQueue := s.timerQueue.eraseIdx top, place := .submit t s.clock } [.popped t]
  /-- `wait_for`: the queue is not empty, which is all that its predicate asks. -/
  | early {top : ℕ} {t : TimerTask τ} (hplace : s.place = .lock) (hearliest : s.Earliest t)
      (hearly : s.clock < t.expire) :
    Steps kind s (.timerLoop top) { s with place := .head } []
  | resume (top : ℕ) {deadline : Option Int64} (hplace : s.place = .woken deadline) :
    Steps kind s (.timerLoop top) { s with place := s.await deadline } []
  | submit (top : ℕ) {t : TimerTask τ} {now : Int64} (hplace : s.place = .submit t now)
      {place : Place τ} (h : place = .head ∨ place = .reschedule t now ∧ 0 < t.interval) :
    Steps kind s (.timerLoop top) { s with place }
      [if t.func.isSome then .submitted t s.clock else .dropped t]
  | reschedule (top : ℕ) {t : TimerTask τ} {now : Int64} (hplace : s.place = .reschedule t now) :
    Steps kind s (.timerLoop top)
      { s with
        timerQueue := s.newTimer t.func now t.interval t.interval :: s.timerQueue,
        nextTimerId := s.nextTimerId + 1, place := .head }
      [.scheduled (s.newTimer t.func now t.interval t.interval) now t.interval,
        .pushed (s.newTimer t.func now t.interval t.interval)]
  | stop : Steps kind s .stop { s.wake with timerRunning := false } [.stopRequested]
  | spurious {deadline : Option Int64} (hplace : s.place = .blocked deadline) :
    Steps kind s .spuriousWakeup s.wake [.spurious]
  | timeout {deadline : Int64} (hplace : s.place = .blocked (some deadline))
      (h : deadline ≤ s.clock) : Steps kind s .timeout s.wake []
  | tick {now : Int64} (h : s.clock ≤ now) : Steps kind s (.tick now) { s with clock := now } []

theorem steps_of_schedule {a : Action τ} {task : Option τ} {delay interval : Int64}
    (hcall : a.IsCall task delay interval) :
    Steps kind s a (s.schedule task delay interval).1 (s.schedule task delay interval).2 := by
  unfold schedule
  split
  · exact .atOnce hcall ‹_›
  · exact .call hcall (Int64.not_le.mp ‹_›)

/-- **A `wait_for` on timers does not wait.** -/
theorem await_some (deadline : Int64) (h : s.timerQueue ≠ []) :
    s.await (some deadline) = .head := by
  have hpredicate : s.predicate = true := by
    rw [predicate, List.isEmpty_eq_false_iff.mpr h]
    exact Bool.or_true _
  rw [await, hpredicate]
  rfl

/-- A `wait` on an empty queue. -/
theorem await_none (h : s.timerQueue = []) :
    s.await none = if s.timerRunning then .blocked none else .exited := by
  rw [await, predicate, h]
  cases s.timerRunning <;> rfl

/-- The order of the heap, turned round. -/
theorem earliest_of_top {top : ℕ} {t : TimerTask τ} (htop : s.timerQueue[top]? = some t)
    (h : s.timerQueue.any t.lt = false) : s.Earliest t := by
  refine ⟨List.mem_of_getElem? htop, fun u hu => ?_⟩
  have hnot := List.any_eq_false.mp h u hu
  rw [TimerTask.lt, decide_eq_true_eq] at hnot
  exact Int64.not_lt.mp hnot

theorem steps_of_look {top : ℕ} {r : TimerThread τ × List (Event τ)} (hplace : s.place = .lock)
    (h : s.look top = some r) : Steps kind s (.timerLoop top) r.1 r.2 := by
  rw [look] at h
  split at h
  · rename_i hempty
    have hempty := List.isEmpty_iff.mp hempty
    cases h
    show Steps kind s _ { s with place := s.await none } []
    rw [await_none hempty]
    exact .wait top hplace hempty
  · obtain ⟨t, htop, h⟩ := Option.bind_eq_some_iff.mp h
    obtain ⟨hany, h⟩ := Option.ite_none_left_eq_some.mp h
    have hearliest := earliest_of_top htop (Bool.eq_false_iff.mpr hany)
    split at h
    · cases h
      exact .pop hplace htop hearliest ‹_›
    · cases h
      show Steps kind s _ { s with place := s.await (some _) } []
      rw [await_some _ (List.ne_nil_of_mem hearliest.1)]
      exact .early hplace hearliest (Int64.not_le.mp ‹_›)

theorem steps_of_submit {t : TimerTask τ} {now : Int64} (top : ℕ)
    (hplace : s.place = .submit t now) :
    Steps kind s (.timerLoop top) (s.submit kind t now).1 (s.submit kind t now).2 := by
  refine .submit top hplace ?_
  cases kind with
  | createDefault => exact Or.inl rfl
  | createScheduler =>
    show (if 0 < t.interval && t.func.isSome then Place.reschedule t now else .head) = .head ∨
      (if 0 < t.interval && t.func.isSome then Place.reschedule t now else .head)
        = .reschedule t now ∧ 0 < t.interval
    split
    · rename_i hperiodic
      rw [Bool.and_eq_true, decide_eq_true_eq] at hperiodic
      exact Or.inr ⟨rfl, hperiodic.1⟩
    · exact Or.inl rfl

theorem steps_of_step {a : Action τ} {r : TimerThread τ × List (Event τ)}
    (h : s.step kind a = some r) : Steps kind s a r.1 r.2 := by
  cases a with
  | scheduleAfter task delay =>
    cases h
    exact steps_of_schedule (Or.inl ⟨rfl, rfl⟩)
  | scheduleEvery task interval =>
    cases h
    exact steps_of_schedule (Or.inr ⟨rfl, rfl⟩)
  | push i =>
    obtain ⟨t, ht, rfl⟩ := Option.map_eq_some_iff.mp h
    exact .push ht
  | notifyOne =>
    obtain ⟨hsome, h⟩ := Option.ite_none_left_eq_some.mp h
    cases h
    exact .notify (Nat.pos_of_ne_zero hsome)
  | timerLoop top =>
    rw [step, timerLoop] at h
    split at h
    · rename_i hplace
      split at h
      · cases h
        exact .enter top hplace ‹_›
      · cases h
        exact .leave top hplace (Bool.eq_false_iff.mpr ‹_›)
    · exact steps_of_look ‹_› h
    · cases h
      exact .resume top ‹_›
    · cases h
      exact steps_of_submit top ‹_›
    · cases h
      exact .reschedule top ‹_›
    · cases h
    · cases h
  | stop =>
    cases h
    exact .stop
  | spuriousWakeup =>
    rw [step] at h
    split at h
    · cases h
      exact .spurious ‹_›
    · cases h
  | timeout =>
    rw [step] at h
    split at h
    · obtain ⟨hover, h⟩ := Option.ite_none_right_eq_some.mp h
      cases h
      exact .timeout ‹_› hover
    · cases h
  | tick now =>
    obtain ⟨hlater, h⟩ := Option.ite_none_right_eq_some.mp h
    cases h
    exact .tick hlater

end TimerThread
