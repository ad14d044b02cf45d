import HttpServer.DispatchQueue
import HttpServer.WorkPool

/-!
# What becomes of the tasks of the dispatcher

A task that is put into the queue of `DefaultEventDispatcher` is executed once, or it is still
there (`Steps.account`); the queue keeps to its limit, and a task is only dropped when the queue
is full. The test under the mutex lets no worker leave before the queue is empty. But the loop
begins with a test of its own, `while (!stop_)`, and a worker that has executed a task leaves
there, whatever is in the queue. Once `stop_` is stored, no worker takes more than one task, and
only those take one that are between the two tests.

So what is queued when `stop_` is stored is executed exactly if there are as many such workers as
tasks, and with each task that is queued later there has to be one more of them
(`dispatch_lossless_iff`).
-/

namespace DispatchWorker

variable {τ : Type*}

/-- It has passed the head of its loop, and has yet to take a task. -/
def taking : DispatchWorker τ → Bool
  | .lock | .check | .block | .blocked | .test | .pop => true
  | _ => false

@[simp] theorem taking_wake (w : DispatchWorker τ) : w.wake.taking = w.taking := by
  cases w <;> rfl

@[simp] theorem task_wake (w : DispatchWorker τ) : w.wake.task = w.task := by
  cases w <;> rfl

end DispatchWorker

namespace DispatchQueue

variable {τ : Type*}

/-! ## The account of the tasks -/

/-- The task of an event, if it is one of being queued. -/
def pushedTask : Option (DispatchEvent τ) → Option τ
  | some (.pushed t) => some t
  | _ => none

/-- The task of an event, if it is one of being executed. -/
def executedTask : Option (DispatchEvent τ) → Option τ
  | some (.executed t) => some t
  | _ => none

/-- The tasks that have been queued. -/
def pushed (events : List (Option (DispatchEvent τ))) : List τ := events.filterMap pushedTask

/-- The tasks that have been executed. -/
def executed (events : List (Option (DispatchEvent τ))) : List τ := events.filterMap executedTask

/-- What the queue and its workers are for. -/
def pool (s : DispatchQueue τ) : WorkPool τ := ⟨s.taskQueue, s.workers.map DispatchWorker.task⟩

/-- What has been queued is executed once, or in a worker's hands or in the queue. -/
def Accounted (s : DispatchQueue τ) (events : List (Option (DispatchEvent τ))) : Prop :=
  WorkPool.Account s.pool (pushed events) (executed events)

variable {s s' : DispatchQueue τ} {events : List (Option (DispatchEvent τ))}

theorem hands_getElem? {i : ℕ} {w : DispatchWorker τ} (h : s.workers[i]? = some w) :
    s.pool.hands[i]? = some w.task := by
  show (s.workers.map DispatchWorker.task)[i]? = some w.task
  rw [List.getElem?_map, h, Option.map_some]

/-- A step that is none of a task. -/
theorem Accounted.of_pool_eq (h : s.Accounted events) (hpool : s'.pool = s.pool)
    {e : Option (DispatchEvent τ)} (hpushed : pushedTask e = none)
    (hexecuted : executedTask e = none) : s'.Accounted (events ++ [e]) := by
  have hp : pushed (events ++ [e]) = pushed events := by
    rw [pushed, List.filterMap_append, List.filterMap_cons, hpushed]
    exact List.append_nil _
  have he : executed (events ++ [e]) = executed events := by
    rw [executed, List.filterMap_append, List.filterMap_cons, hexecuted]
    exact List.append_nil _
  rw [Accounted, hp, he, hpool]
  exact h

/-- A worker that goes on with the same in its hands. -/
theorem pool_setWorker {i : ℕ} {w w' : DispatchWorker τ} (hw : s.workers[i]? = some w)
    (htask : w'.task = w.task) : (s.setWorker i w').pool = s.pool :=
  congrArg (WorkPool.mk s.taskQueue) (Threads.map_set_of_eq DispatchWorker.task hw htask)

/-- **Each step keeps the account.** -/
theorem Steps.account {a : DispatchAction τ} {e : Option (DispatchEvent τ)} (hs : s.Steps a s' e)
    (h : s.Accounted events) : s'.Accounted (events ++ [e]) := by
  cases hs with
  | drop t hfull => exact h.of_pool_eq rfl rfl rfl
  | push t hfree hroom =>
    have hput := WorkPool.Account.put h (.put _ t)
    rw [Accounted, pushed, executed, List.filterMap_append, List.filterMap_append]
    show WorkPool.Account _ (pushed events ++ [t]) (executed events ++ [])
    rw [List.append_nil]
    exact hput
  | storeStop halive => exact h.of_pool_eq rfl rfl rfl
  | notifyAll hstopping =>
    refine h.of_pool_eq ?_ rfl rfl
    refine congrArg (WorkPool.mk s.taskQueue) ?_
    rw [List.map_map]
    exact List.map_congr_left fun w _ => w.task_wake
  | join hn hexited => exact h.of_pool_eq rfl rfl rfl
  | @worker i w w' s'' hw hp =>
    cases hp with
    | @pop t taskQueue hqueue =>
      have htake : WorkPool.Step s.pool (.take i)
          ⟨taskQueue, s.pool.hands.set i (some t)⟩ := by
        rw [pool, hqueue]
        exact .take (hands_getElem? hw)
      have hnext := WorkPool.Account.take h htake
      rw [Accounted, pushed, executed, List.filterMap_append, List.filterMap_append]
      show WorkPool.Account ⟨taskQueue, (s.workers.set i (.running t)).map DispatchWorker.task⟩
        (pushed events ++ []) (executed events ++ [])
      rw [List.append_nil, List.append_nil, List.map_set]
      exact hnext
    | leave _ | enter _ | lock _ | ready _ | wait _ _ | block | finish _ _ | goOn _ =>
      refine h.of_pool_eq ?_ rfl rfl
      exact congrArg (WorkPool.mk s.taskQueue) (Threads.map_set_of_eq DispatchWorker.task hw rfl)
  | @execute i t hw =>
    have hfinish : WorkPool.Step s.pool (.finish i t) ⟨s.taskQueue, s.pool.hands.set i none⟩ :=
      .finish (hands_getElem? hw)
    have hnext := WorkPool.Account.finish h hfinish
    rw [Accounted, pushed, executed, List.filterMap_append, List.filterMap_append]
    show WorkPool.Account ⟨s.taskQueue, (s.workers.set i .head).map DispatchWorker.task⟩
      (pushed events ++ []) (executed events ++ [t])
    rw [List.append_nil, List.map_set]
    exact hnext
  | notified hw =>
    refine h.of_pool_eq ?_ rfl rfl
    exact pool_setWorker hw rfl
  | unheard => exact h.of_pool_eq rfl rfl rfl
  | spurious hw =>
    refine h.of_pool_eq ?_ rfl rfl
    exact pool_setWorker hw rfl

theorem accounted_of_run {workers maxQueueSize : ℕ} {as : List (DispatchAction τ)}
    (hr : (machine τ).run (started workers maxQueueSize) as = some (s, events)) :
    s.Accounted events := by
  refine Machine.run_invariant (I := Accounted) ?_ ?_ hr
  · rw [Accounted, pool, started, List.map_replicate]
    exact WorkPool.Account.start workers
  · exact fun s' os' a r h hstep => (steps_of_step hstep).account h

/-! ## The limit -/

/-- The queue keeps to its limit. -/
def Bounded (M : ℕ) (s : DispatchQueue τ) : Prop := s.taskQueue.length ≤ M

/-- The limit is `M`, and the queue keeps to it. -/
def Limited (M : ℕ) (s : DispatchQueue τ) : Prop := s.maxQueueSize = M ∧ s.Bounded M

/-- A task is dropped only where the queue is full. -/
def DropsOnlyFull (M : ℕ) (s : DispatchQueue τ) (a : DispatchAction τ) : Prop :=
  ∀ s' t, s.step a = some (s', some (.dropped t)) → s.taskQueue.length = M

theorem Proceeds.length_le {w w' : DispatchWorker τ} (hp : s.Proceeds w s' w') :
    s'.taskQueue.length ≤ s.taskQueue.length := by
  cases hp with
  | pop h =>
    rw [h]
    exact Nat.le_succ _
  | _ => exact Nat.le_refl _

theorem Proceeds.maxQueueSize_eq {w w' : DispatchWorker τ} (hp : s.Proceeds w s' w') :
    s'.maxQueueSize = s.maxQueueSize := by
  cases hp <;> rfl

theorem Steps.limited {M : ℕ} {a : DispatchAction τ} {e : Option (DispatchEvent τ)}
    (hs : s.Steps a s' e) (hM : 0 < M) (h : s.Limited M) : s'.Limited M := by
  obtain ⟨hmax, hle⟩ := h
  cases hs with
  | push t hfree hroom =>
    refine ⟨hmax, ?_⟩
    rw [hmax] at hroom
    show (s.taskQueue ++ [t]).length ≤ M
    rw [List.length_append, List.length_singleton]
    have hlt : ¬ M ≤ s.taskQueue.length := fun hfull => hroom ⟨hM, hfull⟩
    omega
  | worker hw hp => exact ⟨hp.maxQueueSize_eq.trans hmax, Nat.le_trans hp.length_le hle⟩
  | _ => exact ⟨hmax, hle⟩

theorem Limited.dropsOnlyFull {M : ℕ} (h : s.Limited M) (a : DispatchAction τ) :
    s.DropsOnlyFull M a := by
  intro s' t hstep
  obtain ⟨hmax, hle⟩ := h
  cases steps_of_step hstep with
  | drop t hfull =>
    rw [hmax] at hfull
    exact Nat.le_antisymm hle hfull.2

/-! ## The workers that are left -/

/-- How many workers have passed the head of the loop and have yet to take a task. -/
def takers (s : DispatchQueue τ) : ℕ := s.workers.countP DispatchWorker.taking

/-- There are enough workers left for the tasks: for those in the queue when `stop_` is stored,
and one more for each that is queued later. -/
def EnoughTakers (s : DispatchQueue τ) : DispatchAction τ → Prop
  | .storeStop => s.taskQueue.length ≤ s.takers
  | .dispatchTask _ => s.stop = true → 0 < s.maxQueueSize ∧ s.maxQueueSize ≤ s.taskQueue.length ∨
      s.taskQueue.length < s.takers
  | _ => True

instance decidableEnoughTakers (s : DispatchQueue τ) :
    ∀ a : DispatchAction τ, Decidable (s.EnoughTakers a)
  | .storeStop => inferInstanceAs (Decidable (_ ≤ _))
  | .dispatchTask _ => inferInstanceAs (Decidable (_ → _ ∨ _))
  | .notifyOne _ | .notifyAll | .join => .isTrue trivial
  | .worker _ | .execute _ | .spuriousWakeup _ => .isTrue trivial

/-- Behind the store, there is a worker for each task. -/
def Covered (s : DispatchQueue τ) : Prop := s.stop = true → s.taskQueue.length ≤ s.takers

/-- Behind the store, there are more tasks than workers for them. -/
def Uncovered (s : DispatchQueue τ) : Prop := s.stop = true ∧ s.takers < s.taskQueue.length

theorem takers_setWorker {i : ℕ} {w : DispatchWorker τ} (hw : s.workers[i]? = some w)
    (hs : s'.workers = s.workers) (w' : DispatchWorker τ) :
    (s'.setWorker i w').takers + w.taking.toNat = s.takers + w'.taking.toNat := by
  show (s'.workers.set i w').countP DispatchWorker.taking + _ = _
  rw [hs]
  exact Threads.countP_set_add DispatchWorker.taking hw w'

theorem takers_map_wake :
    (s.workers.map DispatchWorker.wake).countP DispatchWorker.taking = s.takers := by
  rw [takers, List.countP_map]
  exact List.countP_congr fun w _ => by rw [Function.comp_apply, DispatchWorker.taking_wake]

/-- **With `stop_` set, a worker that takes a task is one less for one task less**; and only from
an empty queue does one leave without. -/
theorem Proceeds.takers_eq {i : ℕ} {w w' : DispatchWorker τ} (hp : s.Proceeds w s' w')
    (hw : s.workers[i]? = some w) (hstop : s.stop = true) :
    (s'.setWorker i w').takers + s.taskQueue.length = s.takers + s'.taskQueue.length ∨
      s.taskQueue = [] ∧ s'.taskQueue = [] := by
  have hcount := takers_setWorker hw hp.workers_eq w'
  cases hp with
  | enter h =>
    rw [hstop] at h
    cases h
  | finish h hempty => exact Or.inr ⟨hempty, hempty⟩
  | @pop t taskQueue h =>
    refine Or.inl ?_
    have hlen : s.taskQueue.length = taskQueue.length + 1 := by rw [h, List.length_cons]
    simp only [DispatchWorker.taking, Bool.toNat_true, Bool.toNat_false] at hcount
    show _ + _ = _ + taskQueue.length
    omega
  | _ => exact Or.inl (congrArg (· + s.taskQueue.length) (Nat.add_right_cancel hcount))

/-- Only the destructor's store changes `stop_`. -/
theorem Steps.stop_eq {a : DispatchAction τ} {e : Option (DispatchEvent τ)} (hs : s.Steps a s' e)
    (ha : a ≠ .storeStop) : s'.stop = s.stop := by
  cases hs with
  | storeStop halive => exact absurd rfl ha
  | notifyAll hstopping =>
    rw [stop, stop, hstopping]
    rfl
  | join hn hexited =>
    rw [stop, stop, hn]
    rfl
  | worker hw hp =>
    have hteardown := hp.teardown_eq
    rw [stop, stop, ← hteardown]
    rfl
  | _ => rfl

/-- **A step that puts no task into the queue, once `stop_` is set.** -/
theorem Steps.takers_eq {a : DispatchAction τ} {e : Option (DispatchEvent τ)} (hs : s.Steps a s' e)
    (hstop : s.stop = true) (hpush : pushedTask e = none) :
    s'.takers + s.taskQueue.length = s.takers + s'.taskQueue.length ∨
      s.taskQueue = [] ∧ s'.taskQueue = [] := by
  cases hs with
  | push t hfree hroom => cases hpush
  | notifyAll hstopping => exact Or.inl (congrArg (· + _) takers_map_wake)
  | worker hw hp => exact hp.takers_eq hw hstop
  | execute hw => exact Or.inl (congrArg (· + _) (takers_setWorker hw rfl .head))
  | notified hw =>
    have hcount := takers_setWorker hw rfl .lock
    exact Or.inl (congrArg (· + _) (Nat.add_right_cancel hcount))
  | spurious hw =>
    have hcount := takers_setWorker hw rfl .lock
    exact Or.inl (congrArg (· + _) (Nat.add_right_cancel hcount))
  | _ => exact Or.inl rfl

/-- A step that puts a task into the queue. -/
theorem Steps.of_push {a : DispatchAction τ} {e : Option (DispatchEvent τ)} {t : τ}
    (hs : s.Steps a s' e) (hpush : pushedTask e = some t) :
    a = .dispatchTask t ∧ ¬ (0 < s.maxQueueSize ∧ s.maxQueueSize ≤ s.taskQueue.length) ∧
      s'.takers = s.takers ∧ s'.taskQueue.length = s.taskQueue.length + 1 := by
  cases hs with
  | push t' hfree hroom =>
    cases hpush
    exact ⟨rfl, hroom, rfl, List.length_append⟩
  | _ => cases hpush

theorem Steps.covered {a : DispatchAction τ} {e : Option (DispatchEvent τ)} (hs : s.Steps a s' e)
    (henough : s.EnoughTakers a) (h : s.Covered) : s'.Covered := by
  intro hstop'
  by_cases ha : a = .storeStop
  · subst ha
    cases hs with
    | storeStop halive => exact henough
  have hstop : s.stop = true := hs.stop_eq ha ▸ hstop'
  have hle := h hstop
  cases hpush : pushedTask e with
  | none =>
    obtain hcount | ⟨-, hempty⟩ := hs.takers_eq hstop hpush
    · omega
    · rw [hempty]
      exact Nat.zero_le _
  | some t =>
    obtain ⟨rfl, hroom, htakers, hlength⟩ := hs.of_push hpush
    obtain hfull | hlt := henough hstop
    · exact absurd hfull hroom
    · omega

/-- **A step for which there are not enough workers leaves a task without one.** -/
theorem Steps.uncovered_of_not_enough {a : DispatchAction τ} {e : Option (DispatchEvent τ)}
    (hs : s.Steps a s' e) (hfew : ¬ s.EnoughTakers a) : s'.Uncovered := by
  cases hs with
  | storeStop halive => exact ⟨rfl, Nat.lt_of_not_le hfew⟩
  | drop t hfull => exact absurd (fun _ => Or.inl hfull) hfew
  | push t hfree hroom =>
    obtain ⟨hstop, hnot⟩ := Classical.not_imp.mp hfew
    have hle := Nat.le_of_not_lt (not_or.mp hnot).2
    refine ⟨hstop, ?_⟩
    show s.takers < (s.taskQueue ++ [t]).length
    rw [List.length_append, List.length_singleton]
    omega
  | _ => exact absurd trivial hfew

/-- **And it stays without one.** -/
theorem Steps.uncovered {a : DispatchAction τ} {e : Option (DispatchEvent τ)}
    (hs : s.Steps a s' e) (h : s.Uncovered) : s'.Uncovered := by
  obtain ⟨hstop, hlt⟩ := h
  have ha : a ≠ .storeStop := by
    rintro rfl
    cases hs with
    | storeStop halive =>
      rw [stop, halive] at hstop
      cases hstop
  refine ⟨(hs.stop_eq ha).trans hstop, ?_⟩
  cases hpush : pushedTask e with
  | none =>
    obtain hcount | ⟨hempty, -⟩ := hs.takers_eq hstop hpush
    · omega
    · rw [hempty] at hlt
      exact absurd hlt (Nat.not_lt_zero _)
  | some t =>
    obtain ⟨-, -, htakers, hlength⟩ := hs.of_push hpush
    omega

/-! ## The end -/

/-- Where the destructor has returned, the workers have left their loops. -/
def Joined (s : DispatchQueue τ) : Prop := s.teardown = .returned → ∀ w ∈ s.workers, w = .exited

theorem Steps.joined {a : DispatchAction τ} {e : Option (DispatchEvent τ)} (hs : s.Steps a s' e)
    (h : s.Joined) : s'.Joined := by
  intro hreturned
  -- a worker that has left does not move
  have hstay : ∀ {i : ℕ} {w : DispatchWorker τ}, s.workers[i]? = some w →
      s.teardown = .returned → w = .exited :=
    fun hw hr => h hr _ (List.mem_of_getElem? hw)
  cases hs with
  | storeStop halive => cases hreturned
  | notifyAll hstopping => cases hreturned
  | join hn hexited => exact hexited
  | worker hw hp =>
    obtain rfl := hstay hw (hp.teardown_eq ▸ hreturned)
    cases hp
  | execute hw => cases hstay hw hreturned
  | notified hw => cases hstay hw hreturned
  | spurious hw => cases hstay hw hreturned
  | _ => exact h hreturned

theorem takers_eq_zero (h : ∀ w ∈ s.workers, w = .exited) : s.takers = 0 := by
  refine List.countP_eq_zero.mpr fun w hw => ?_
  rw [h w hw]
  exact Bool.false_ne_true

theorem held_eq_nil (h : ∀ w ∈ s.workers, w = .exited) : s.pool.held = [] := by
  have hnone : s.pool.hands = List.replicate s.workers.length none := by
    refine List.eq_replicate_iff.mpr ⟨List.length_map _, fun hand hmem => ?_⟩
    obtain ⟨w, hw, rfl⟩ := List.mem_map.mp hmem
    rw [h w hw]
    rfl
  rw [WorkPool.held, hnone, List.reduceOption_replicate_none]

/-- **The queue of the dispatcher is bounded, and lossless as long as there are enough workers**:
in every run the queue keeps to its limit, only a full queue drops a task, and none is executed
twice; when the destructor returns, all that was queued is executed exactly if there were enough
workers for what was queued at the store to `stop_`, and for each task behind it. -/
theorem dispatch_lossless_iff {M workers : ℕ} (hM : 0 < M) {as : List (DispatchAction τ)}
    (hr : (machine τ).run (started workers M) as = some (s, events)) :
    (machine τ).Always (Bounded M) (started workers M) as
      ∧ (machine τ).Along (DropsOnlyFull M) (started workers M) as
      ∧ (executed events).Subperm (pushed events)
      ∧ (s.teardown = .returned →
        ((pushed events).Perm (executed events)
          ↔ (machine τ).Along EnoughTakers (started workers M) as)) := by
  have haccount := accounted_of_run hr
  have hstart : (started workers M : DispatchQueue τ).Limited M := ⟨rfl, Nat.zero_le M⟩
  have hlimited : ∀ (s : DispatchQueue τ) a r, s.Limited M → (machine τ).step s a = some r →
      r.1.Limited M := fun s a r h hstep => (steps_of_step hstep).limited hM h
  refine ⟨?_, ?_, ?_, fun hreturned => ?_⟩
  · exact Machine.always_of_step (fun s h => h.2) hlimited hstart
  · refine Machine.along_of_along (fun s a r h _ => hlimited s a r h) (fun s a r h _ _ => ?_) hstart
      (Machine.along_true _ _)
    exact h.dropsOnlyFull a
  · have hpart : (executed events).Sublist (executed events ++ s.pool.outstanding) :=
      List.sublist_append_left _ _
    exact hpart.subperm.trans haccount.perm.subperm
  · have hjoined : s.Joined := by
      refine Machine.run_invariant (I := fun s _ => s.Joined) ?_ ?_ hr
      · intro h
        cases h
      · exact fun s' _ a r h hstep => (steps_of_step hstep).joined h
    have hexited := hjoined hreturned
    have hstop : s.stop = true := by rw [stop, hreturned]; rfl
    -- what is not executed is in the queue
    have hperm : (executed events ++ s.taskQueue).Perm (pushed events) := by
      have h := haccount.perm
      rwa [WorkPool.outstanding, held_eq_nil hexited, List.nil_append] at h
    have hempty : (pushed events).Perm (executed events) ↔ s.taskQueue = [] := by
      constructor
      · intro h
        have hlength := (hperm.trans h).length_eq
        rw [List.length_append] at hlength
        exact List.length_eq_zero_iff.mp (by omega)
      · intro h
        rw [h, List.append_nil] at hperm
        exact hperm.symm
    have hzero := takers_eq_zero hexited
    rw [hempty]
    rcases Machine.run_of_along (I := Covered) (L := Uncovered) (C := EnoughTakers)
      (fun s a r h hc hstep => (steps_of_step hstep).covered hc h)
      (fun s a r h hc hstep => (steps_of_step hstep).uncovered_of_not_enough hc)
      (fun s a r h hstep => (steps_of_step hstep).uncovered h)
      (fun h => by cases h) hr with ⟨halong, hcovered⟩ | ⟨hno, -, hlt⟩
    · have hle := hcovered hstop
      rw [hzero] at hle
      exact iff_of_true (List.length_eq_zero_iff.mp (Nat.le_zero.mp hle)) halong
    · refine iff_of_false (fun h => ?_) hno
      rw [h] at hlt
      exact absurd hlt (Nat.not_lt_zero _)

/-- Two tasks for two workers that wait for them, and the destructor. -/
def twoTasksTaken : List (DispatchAction ℕ) :=
  [.worker 0, .worker 0, .worker 0, .worker 0, .worker 1, .dispatchTask 7, .notifyOne (some 0),
    .dispatchTask 8, .notifyOne none, .storeStop, .worker 0, .worker 0, .worker 0, .worker 0,
    .worker 1, .notifyAll, .execute 0, .worker 1, .worker 0, .worker 1, .worker 1, .execute 1,
    .worker 1, .join]

/-- With a worker for each task, both are executed. -/
theorem dispatch_lossless_iff_twoTasksTaken : ∃ s events,
    (machine ℕ).run (started 2 1000) twoTasksTaken = some (s, events) ∧
      s.teardown = .returned ∧ (pushed events).Perm (executed events) := by
  refine ⟨_, _, rfl, rfl, ?_⟩
  refine ((dispatch_lossless_iff (by decide) (rfl : (machine ℕ).run (started 2 1000)
    twoTasksTaken = _)).2.2.2 rfl).mpr ?_
  decide

/-- A task is queued for a worker at the head of its loop; then the destructor stores `stop_`. -/
def leftAtTheHead : List (DispatchAction ℕ) :=
  [.dispatchTask 7, .notifyOne none, .storeStop, .worker 0, .notifyAll, .join]

/-- **The destructor returns, and the task has not been executed.** -/
theorem leftAtTheHead_lost : ∃ s events,
    (machine ℕ).run (started 1 1000) leftAtTheHead = some (s, events) ∧
      s.teardown = .returned ∧ pushed events = [7] ∧ executed events = [] :=
  ⟨_, _, rfl, rfl, rfl, rfl⟩

end DispatchQueue
