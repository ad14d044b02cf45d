import HttpServer.DispatchQueue

/-!
# The last notification of the dispatcher

The destructor stores `stop_` and calls `notify_all`, both without `queue_mutex_`. A worker that
evaluates its predicate behind the store finds it true and does not wait, and one that is blocked
by then is woken. In between is the worker that has found the predicate false and is not blocked
yet: `notify_all` does not reach it, it blocks with nobody left to wake it, and the destructor
joins it forever.

`no_lost_wake_up` says that this is the only way to lose the notification, and that it is one:
where `notify_all` finds no worker in this place, no worker is blocked from then on; and where it
finds one, the worker can be left behind. A destructor that stores `stop_` under the mutex, as
`ThreadPoolScheduler` does, never finds one.
-/

namespace DispatchQueue

variable {τ : Type*} {s s' : DispatchQueue τ}

/-- The destructor has called `notify_all`. -/
def Notified (s : DispatchQueue τ) : Prop := s.teardown = .notified ∨ s.teardown = .returned

/-- **A wake-up is lost**: a worker is blocked although the destructor has notified all of them,
and nobody has still to notify one. -/
def Lost (s : DispatchQueue τ) : Prop :=
  s.Notified ∧ .blocked ∈ s.workers ∧ s.notifyOnes = 0

/-- The destructor notifies while no worker is about to block. -/
def NotifiesInTime (s : DispatchQueue τ) (a : DispatchAction τ) : Prop :=
  a = .notifyAll → .block ∉ s.workers

/-- No worker waits or is about to. -/
def Awake (s : DispatchQueue τ) : Prop := .block ∉ s.workers ∧ .blocked ∉ s.workers

theorem Notified.stop_eq (h : s.Notified) : s.stop = true := by
  obtain h | h := h <;> simp [stop, h]

theorem Awake.setWorker (h : s.Awake) {workers : List (DispatchWorker τ)}
    (hs : workers = s.workers) (i : ℕ) {w : DispatchWorker τ} (hblock : w ≠ .block)
    (hblocked : w ≠ .blocked) : .block ∉ workers.set i w ∧ .blocked ∉ workers.set i w := by
  subst hs
  have hall : ∀ v ∈ s.workers, v ≠ .block ∧ v ≠ .blocked := fun v hv =>
    ⟨fun he => h.1 (he ▸ hv), fun he => h.2 (he ▸ hv)⟩
  have hnext := Threads.forall_mem_set hall ⟨hblock, hblocked⟩ i
  exact ⟨fun hmem => (hnext _ hmem).1 rfl, fun hmem => (hnext _ hmem).2 rfl⟩

/-- With `stop_` set, a worker that is awake stays awake. -/
theorem Proceeds.awake {w w' : DispatchWorker τ} (hp : s.Proceeds w s' w') (hstop : s.stop = true)
    (hw : w ≠ .block) : w' ≠ .block ∧ w' ≠ .blocked := by
  cases hp with
  | wait hempty h =>
    rw [hstop] at h
    cases h
  | block => exact absurd rfl hw
  | _ => exact ⟨by simp, by simp⟩

/-- **Behind the notification, who is awake stays awake.** -/
theorem Steps.awake {a : DispatchAction τ} {e : Option (DispatchEvent τ)}
    (hs : s.Steps a s' e) (hintime : s.NotifiesInTime a) (h : s.Notified → s.Awake) :
    s'.Notified → s'.Awake := by
  intro hnotified
  cases hs with
  | drop t hfull => exact h hnotified
  | push t hfree hroom => exact h hnotified
  | storeStop halive => obtain hn | hn := hnotified <;> cases hn
  | notifyAll hstopping =>
    refine ⟨fun hmem => ?_, fun hmem => ?_⟩
    · obtain ⟨w, hw, he⟩ := List.mem_map.mp hmem
      cases w with
      | block => exact hintime rfl hw
      | _ => cases he
    · obtain ⟨w, -, he⟩ := List.mem_map.mp hmem
      cases w <;> cases he
  | join hn hexited => exact h (Or.inl hn)
  | @worker i w w' s'' hw hp =>
    have hbefore : s.Notified := by
      rw [Notified, ← hp.teardown_eq]
      exact hnotified
    have hawake := h hbefore
    have hne : w ≠ .block := fun he => hawake.1 (he ▸ List.mem_of_getElem? hw)
    obtain ⟨hblock, hblocked⟩ := hp.awake hbefore.stop_eq hne
    exact hawake.setWorker hp.workers_eq i hblock hblocked
  | execute hw => exact (h hnotified).setWorker rfl _ (by simp) (by simp)
  | notified hw => exact (h hnotified).setWorker rfl _ (by simp) (by simp)
  | unheard => exact h hnotified
  | spurious hw => exact (h hnotified).setWorker rfl _ (by simp) (by simp)

/-- While nobody is blocked, the pending notifications are lost on everybody. -/
theorem run_notifyOnes (hnone : .blocked ∉ s.workers) (halive : s.teardown ≠ .returned) {k : ℕ}
    (hk : s.notifyOnes = k) :
    ∃ os, (machine τ).run s (List.replicate k (.notifyOne none))
      = some ({ s with notifyOnes := 0 }, os) := by
  induction k generalizing s with
  | zero =>
    have hs : ({ s with notifyOnes := 0 } : DispatchQueue τ) = s := by rw [← hk]
    exact ⟨[], by rw [hs]; rfl⟩
  | succ k ih =>
    have hany : s.workers.any DispatchWorker.isBlocked = false := by
      rw [List.any_eq_false]
      exact fun w hw hb => hnone (eq_blocked_of_isBlocked hb ▸ hw)
    have hstep : (machine τ).step s (.notifyOne none)
        = some ({ s with notifyOnes := s.notifyOnes - 1 }, none) := by
      have hcond : ¬ (s.notifyOnes = 0 ∨ s.teardown = .returned) :=
        not_or.mpr ⟨by omega, halive⟩
      show (if s.notifyOnes = 0 ∨ s.teardown = .returned then none else _) = _
      rw [if_neg hcond, wakeOne, hany]
      rfl
    obtain ⟨os, hrest⟩ := ih (s := { s with notifyOnes := s.notifyOnes - 1 }) hnone halive
      (by show s.notifyOnes - 1 = k; omega)
    exact ⟨none :: os, Machine.run_cons_eq_some.mpr ⟨_, os, hstep, hrest, rfl⟩⟩

/-- **A worker that is about to block when the destructor notifies can be left behind.** -/
theorem lost_of_block {r : DispatchQueue τ × Option (DispatchEvent τ)}
    (hr : (machine τ).step s .notifyAll = some r) (hblock : .block ∈ s.workers) :
    ∃ bs t os, (machine τ).run r.1 bs = some (t, os) ∧ t.Lost := by
  obtain ⟨-, h⟩ := Option.ite_none_right_eq_some.mp hr
  cases h
  set s' : DispatchQueue τ :=
    { s with teardown := .notified, workers := s.workers.map DispatchWorker.wake } with hs'
  have hnone : .blocked ∉ s'.workers := by
    intro hmem
    obtain ⟨w, -, he⟩ := List.mem_map.mp hmem
    cases w <;> cases he
  have hblock' : .block ∈ s'.workers := List.mem_map.mpr ⟨.block, hblock, rfl⟩
  obtain ⟨i, hi⟩ := List.getElem?_of_mem hblock'
  obtain ⟨os, hrun⟩ := run_notifyOnes hnone (by simp [hs']) (k := s'.notifyOnes) rfl
  -- the notifications that are still to come find nobody, and then the worker blocks
  set s'' : DispatchQueue τ := { s' with notifyOnes := 0 } with hs''
  have hstep : (machine τ).step s'' (.worker i)
      = some (({ s'' with locked := false } : DispatchQueue τ).setWorker i .blocked, none) := by
    show (s''.workers[i]?.bind _) = _
    rw [show s''.workers[i]? = some .block from hi]
    rfl
  refine ⟨List.replicate s'.notifyOnes (.notifyOne none) ++ [.worker i], _, os ++ [none],
    Machine.run_append_eq_some.mpr ⟨s'', os, [none], hrun,
      Machine.run_cons_eq_some.mpr ⟨_, [], hstep, rfl, rfl⟩, rfl⟩, Or.inl rfl, ?_, rfl⟩
  exact List.mem_iff_getElem?.mpr ⟨i, List.getElem?_set_self (List.getElem?_eq_some_iff.mp hi).1⟩

/-- **Shutdown loses a wake-up exactly where the destructor notifies while a worker is about to
block**: in a run where it does not, no state has lost one; and where it does, such a state can
be reached. -/
theorem no_lost_wake_up_at_shutdown (workers maxQueueSize : ℕ) (as : List (DispatchAction τ)) :
    ((machine τ).Along NotifiesInTime (started workers maxQueueSize) as →
        (machine τ).Always (fun s => ¬ s.Lost) (started workers maxQueueSize) as)
      ∧ ∀ s r, (machine τ).step s .notifyAll = some r → ¬ s.NotifiesInTime .notifyAll →
        ∃ bs t os, (machine τ).run r.1 bs = some (t, os) ∧ t.Lost := by
  refine ⟨Machine.always_of_along (I := fun s => s.Notified → s.Awake) ?_ ?_ ?_, ?_⟩
  · rintro s h ⟨hnotified, hblocked, -⟩
    exact (h hnotified).2 hblocked
  · exact fun s a r h hintime hr => (steps_of_step hr).awake hintime h
  · intro h
    obtain h | h := h <;> cases h
  · intro s r hr hnot
    have hblock : .block ∈ s.workers := by
      by_contra hno
      exact hnot fun _ => hno
    exact lost_of_block hr hblock

/-- A worker finds nothing to do; before it blocks, the destructor stores and notifies. -/
def notifiedTooEarly : List (DispatchAction ℕ) :=
  [.worker 0, .worker 0, .worker 0, .storeStop, .notifyAll, .worker 0]

/-- The worker is blocked, and nobody will wake it. -/
theorem notifiedTooEarly_lost : ∃ s os,
    (machine ℕ).run (started 1 1000) notifiedTooEarly = some (s, os) ∧ s.Lost :=
  ⟨_, _, rfl, Or.inl rfl, List.mem_cons_self, rfl⟩

end DispatchQueue
