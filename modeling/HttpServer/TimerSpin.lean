import HttpServer.TimerThread

/-!
# The timer thread goes round

An iteration of `timerLoop` that takes a timer, or waits until something happens, is paid for: by
the timer, or by what woke it. An iteration that finds the earliest timer not due yet calls
`wait_for`, with the predicate of the other wait: that there are timers. There are, so that it does
not wait, and the next iteration finds what this one has found (`spins`).

`iterations_le` counts what is paid for. What is not yet used up of it are the notifications
that are on their way, and an iteration that the thread may begin (`spare`).
-/

namespace TimerThread

variable {τ : Type*}

/-- An iteration has begun. -/
def Event.isIteration : Event τ → Bool
  | .iteration => true
  | _ => false

/-- A timer has been pushed or popped, `Stop` has been called, or the thread has been woken by
nothing. -/
def Event.isOccurrence : Event τ → Bool
  | .pushed _ | .popped _ | .stopRequested | .spurious => true
  | _ => false

/-- How many iterations there have been. -/
def iterations (events : List (Event τ)) : ℕ := events.countP Event.isIteration

/-- How much has happened. -/
def occurrences (events : List (Event τ)) : ℕ := events.countP Event.isOccurrence

/-- If an iteration finds timers, one of them is due. -/
def DueWhenLooked (s : TimerThread τ) (a : Action τ) : Prop :=
  ∀ top, a = .timerLoop top → s.place = .lock → s.timerRunning = true → s.timerQueue ≠ [] →
    ∃ t ∈ s.timerQueue, t.expire ≤ s.clock

/-- It is going to be at the head of the loop, if nothing is in its way. -/
def Place.goesOn : Place τ → Bool
  | .head | .woken _ | .submit _ _ | .reschedule _ _ => true
  | _ => false

/-- The iteration that the thread may begin. -/
def spare (s : TimerThread τ) : ℕ := (s.timerRunning && s.place.goesOn).toNat

/-- A wait that has no end of its own. -/
def Place.Untimed : Place τ → Prop
  | .blocked deadline => deadline = none
  | .woken deadline => deadline = none
  | _ => True

/-- **Each iteration has been paid for**: what is left over are the notifications to come, and the
iteration to come. -/
def Paid (s : TimerThread τ) (events : List (Event τ)) : Prop :=
  s.place.Untimed ∧ iterations events + s.notifyOnes + s.spare ≤ occurrences events + 1

variable {kind : SchedulerKind} {s s' : TimerThread τ} {events es : List (Event τ)}

theorem spare_le_one (s : TimerThread τ) : s.spare ≤ 1 := Bool.toNat_le _

theorem spare_le (s : TimerThread τ) : s.spare ≤ s.timerRunning.toNat := by
  rw [spare]
  cases s.timerRunning
  · exact Nat.le_refl _
  · exact Bool.toNat_le _

theorem spare_eq (h : s.place.goesOn = true) : s.spare = s.timerRunning.toNat := by
  rw [spare, h, Bool.and_true]

theorem spare_eq_zero (h : s.place.goesOn = false) : s.spare = 0 := by
  rw [spare, h, Bool.and_false]
  rfl

theorem Place.Untimed.wake {place : Place τ} (h : place.Untimed) : place.wake.Untimed := by
  cases place <;> exact h

theorem untimed_await (s : TimerThread τ) : (s.await none).Untimed := by
  unfold await
  split
  · split <;> trivial
  · rfl

/-- A step that pays for what it uses. -/
theorem Paid.append (h : s.Paid events) (huntimed : s'.place.Untimed)
    (hpaid : iterations es + s'.notifyOnes + s'.spare
      ≤ occurrences es + s.notifyOnes + s.spare) : s'.Paid (events ++ es) := by
  refine ⟨huntimed, ?_⟩
  have hle := h.2
  rw [iterations, occurrences, List.countP_append, List.countP_append]
  unfold iterations occurrences at hle hpaid
  omega

/-- A step without an iteration that takes nothing from what is left over. -/
theorem Paid.rest (h : s.Paid events) (huntimed : s'.place.Untimed) (hes : iterations es = 0)
    (hnotify : s'.notifyOnes = s.notifyOnes) (hspare : s'.spare ≤ s.spare) :
    s'.Paid (events ++ es) := by
  refine h.append huntimed ?_
  rw [hes, hnotify]
  omega

/-- A step that pays for the iteration to come. -/
theorem Paid.occur (h : s.Paid events) (huntimed : s'.place.Untimed) (hes : iterations es = 0)
    (hoccurs : occurrences es = 1) (hnotify : s'.notifyOnes = s.notifyOnes) :
    s'.Paid (events ++ es) := by
  refine h.append huntimed ?_
  have hone := spare_le_one s'
  rw [hes, hoccurs, hnotify]
  omega

/-- **Each step pays for what it uses, as long as an iteration finds a timer that is due.** -/
theorem Steps.paid {a : Action τ} (hs : Steps kind s a s' es) (hdue : s.DueWhenLooked a)
    (h : s.Paid events) : s'.Paid (events ++ es) := by
  have huntimed := h.1
  cases hs with
  | atOnce hcall hdelay => exact h.rest huntimed rfl rfl (Nat.le_refl _)
  | call hcall hdelay => exact h.rest huntimed rfl rfl (Nat.le_refl _)
  | push ht =>
    refine h.append huntimed ?_
    show 0 + (s.notifyOnes + 1) + s.spare ≤ 1 + s.notifyOnes + s.spare
    omega
  | notify hsome =>
    refine h.append huntimed.wake ?_
    have hone := spare_le_one { s.wake with notifyOnes := s.notifyOnes - 1 }
    show 0 + (s.notifyOnes - 1) + _ ≤ 0 + s.notifyOnes + s.spare
    omega
  | enter top hplace hrunning =>
    have hspare : s.spare = 1 := by rw [spare_eq (by rw [hplace]; rfl), hrunning]; rfl
    refine h.append trivial ?_
    rw [hspare, spare_eq_zero rfl]
    show 1 + s.notifyOnes + 0 ≤ 0 + s.notifyOnes + 1
    omega
  | leave top hplace hrunning =>
    refine h.rest trivial rfl rfl ?_
    rw [spare_eq_zero rfl]
    exact Nat.zero_le _
  | wait top hplace hempty =>
    refine h.rest ?_ rfl rfl ?_
    · cases s.timerRunning <;> trivial
    · rw [spare_eq_zero (by cases s.timerRunning <;> rfl)]
      exact Nat.zero_le _
  | pop hplace htop hearliest hdue => exact h.occur trivial rfl rfl rfl
  | @early top t hplace hearliest hearly =>
    cases hrunning : s.timerRunning with
    | false =>
      refine h.rest trivial rfl rfl ?_
      rw [spare_eq rfl]
      exact Nat.zero_le _
    | true =>
      -- none of the timers is due, since the first one is not
      obtain ⟨u, hu, hdue⟩ := hdue top rfl hplace hrunning (List.ne_nil_of_mem hearliest.1)
      have hle := Int64.le_trans (hearliest.2 u hu) hdue
      exact absurd hle (Int64.not_le.mpr hearly)
  | @resume top deadline hplace =>
    rw [hplace] at huntimed
    obtain rfl : deadline = none := huntimed
    refine h.rest (untimed_await s) rfl rfl ?_
    have hspare : s.spare = s.timerRunning.toNat := spare_eq (by rw [hplace]; rfl)
    rw [hspare]
    exact spare_le _
  | @submit top t now hplace place hnext =>
    have hspare : s.spare = s.timerRunning.toNat := spare_eq (by rw [hplace]; rfl)
    refine h.rest ?_ ?_ rfl ?_
    · obtain rfl | ⟨rfl, -⟩ := hnext <;> trivial
    · cases t.func <;> rfl
    · rw [hspare]
      exact spare_le _
  | reschedule top hplace => exact h.occur trivial rfl rfl rfl
  | stop => exact h.occur huntimed.wake rfl rfl rfl
  | spurious hplace => exact h.occur huntimed.wake rfl rfl rfl
  | timeout hplace hover =>
    rw [hplace] at huntimed
    cases huntimed
  | tick hlater => exact h.rest huntimed rfl rfl (Nat.le_refl _)

/-- **Each iteration is paid for** in a run in which each finds a timer that is due, or none. -/
theorem iterations_le {clock : Int64} {as : List (Action τ)} {os : List (List (Event τ))}
    (hdue : (machine τ kind).Along DueWhenLooked (started clock) as)
    (hr : (machine τ kind).run (started clock) as = some (s, os)) :
    iterations os.flatten ≤ occurrences os.flatten + 1 := by
  have hpaid : s.Paid os.flatten := by
    refine Machine.Along.run_invariant (I := fun s os => s.Paid os.flatten) hdue ?_ ?_ hr
    · exact ⟨trivial, Nat.le_refl _⟩
    · intro s' os' a r h hdue hstep
      rw [List.flatten_append, List.flatten_singleton]
      exact (steps_of_step hstep).paid hdue h
  have hle := hpaid.2
  omega

/-! ## Where none is due -/

theorem of_not_dueWhenLooked {top : ℕ} (h : ¬ s.DueWhenLooked (.timerLoop top)) :
    s.place = .lock ∧ s.timerRunning = true ∧ s.timerQueue ≠ [] ∧
      ∀ t ∈ s.timerQueue, s.clock < t.expire := by
  by_contra hnot
  refine h fun _ _ hplace hrunning hqueue => ?_
  by_contra hnone
  refine hnot ⟨hplace, hrunning, hqueue, fun t ht => ?_⟩
  exact Int64.not_le.mp fun hdue => hnone ⟨t, ht, hdue⟩

/-- **The wait does not wait**: an iteration that finds no timer due leads to the head of the
loop. -/
theorem step_of_not_dueWhenLooked {top : ℕ} {r : TimerThread τ × List (Event τ)}
    (hr : (machine τ kind).step s (.timerLoop top) = some r)
    (hmiss : ¬ s.DueWhenLooked (.timerLoop top)) : r = ({ s with place := .head }, []) := by
  obtain ⟨hplace, -, hqueue, hlater⟩ := of_not_dueWhenLooked hmiss
  obtain ⟨s', es⟩ := r
  have hstep : s.step kind (.timerLoop top) = some (s', es) := hr
  have hs : Steps kind s (.timerLoop top) s' es := steps_of_step hstep
  cases hs with
  | early hlock hearliest hearly => rfl
  | wait top hlock hempty => exact absurd hempty hqueue
  | pop hlock htop hearliest hdue =>
    exact absurd hdue (Int64.not_le.mpr (hlater _ hearliest.1))
  | atOnce hcall hdelay | call hcall hdelay => obtain ⟨h, -⟩ | ⟨h, -⟩ := hcall <;> cases h
  | enter top h | leave top h | resume top h | submit top h | reschedule top h =>
    rw [hplace] at h
    cases h

/-- **The thread goes round**: as often as one likes, two of its steps after each other leave
everything as it is. -/
theorem spins {top : ℕ} {r : TimerThread τ × List (Event τ)}
    (hr : (machine τ kind).step s (.timerLoop top) = some r)
    (hmiss : ¬ s.DueWhenLooked (.timerLoop top)) (n : ℕ) :
    ∃ os, (machine τ kind).run s (List.replicate (2 * n) (.timerLoop top)) = some (s, os)
      ∧ iterations os.flatten = n ∧ occurrences os.flatten = 0 := by
  obtain ⟨hplace, hrunning, -, -⟩ := of_not_dueWhenLooked hmiss
  have hlook := hr
  rw [step_of_not_dueWhenLooked hr hmiss] at hlook
  have hback : ({ s with place := .lock } : TimerThread τ) = s := by rw [← hplace]
  have henter : (machine τ kind).step { s with place := .head } (.timerLoop top)
      = some (s, [.iteration]) := by
    show (if s.timerRunning then some ({ s with place := .lock }, [Event.iteration]) else _) = _
    rw [if_pos hrunning, hback]
  induction n with
  | zero => exact ⟨[], rfl, rfl, rfl⟩
  | succ n ih =>
    obtain ⟨os, hrun, hiterations, hoccurrences⟩ := ih
    refine ⟨[] :: [.iteration] :: os, ?_, ?_, ?_⟩
    · exact Machine.run_cons_eq_some.mpr ⟨_, _, hlook,
        Machine.run_cons_eq_some.mpr ⟨_, os, henter, hrun, rfl⟩, rfl⟩
    · show List.countP _ (Event.iteration :: os.flatten) = n + 1
      rw [List.countP_cons_of_pos rfl]
      exact congrArg (· + 1) hiterations
    · show List.countP _ (Event.iteration :: os.flatten) = 0
      rw [List.countP_cons_of_neg Bool.false_ne_true]
      exact hoccurrences

/-- **The timer thread spins exactly where it finds timers of which none is due**: in a run in
which it does not, there are no more iterations than pushes, pops, stop requests and spurious
wake-ups, and one; and where it does, it can go round any number of times with none of them. -/
theorem spins_exactly_where_none_is_due (clock : Int64) (as : List (Action τ)) :
    (∀ s os, (machine τ kind).Along DueWhenLooked (started clock) as →
        (machine τ kind).run (started clock) as = some (s, os) →
        iterations os.flatten ≤ occurrences os.flatten + 1)
      ∧ ∀ s top r, (machine τ kind).step s (.timerLoop top) = some r →
        ¬ s.DueWhenLooked (.timerLoop top) → ∀ n, ∃ os,
          (machine τ kind).run s (List.replicate (2 * n) (.timerLoop top)) = some (s, os)
            ∧ iterations os.flatten = n ∧ occurrences os.flatten = 0 :=
  ⟨fun _ _ => iterations_le, fun _ _ _ => spins⟩

/-- A timer of one second, and the thread has begun an iteration. -/
def oneSecond : TimerThread ℕ where
  timerQueue := [⟨some 7, 1000000000, 0, 1⟩]
  place := .lock
  clock := 0
  nextTimerId := 1

/-- How it comes to that. -/
def scheduleOneSecond : List (Action ℕ) :=
  [.scheduleAfter (some 7) 1000, .push 0, .notifyOne, .timerLoop 0]

theorem run_scheduleOneSecond (kind : SchedulerKind) : ∃ os,
    (machine ℕ kind).run (started 0) scheduleOneSecond = some (oneSecond, os)
      ∧ iterations os.flatten = 1 ∧ occurrences os.flatten = 1 :=
  ⟨[[.scheduled ⟨some 7, 1000000000, 0, 1⟩ 0 1000], [.pushed ⟨some 7, 1000000000, 0, 1⟩], [],
    [.iteration]], rfl, rfl, rfl⟩

/-- One timer, and nothing else happens: there are as many iterations as one likes. -/
theorem oneSecond_spins (kind : SchedulerKind) (n : ℕ) : ∃ as s os,
    (machine ℕ kind).run (started 0) as = some (s, os) ∧ iterations os.flatten = 1 + n ∧
      occurrences os.flatten = 1 := by
  have hmiss : ¬ oneSecond.DueWhenLooked (.timerLoop 0) := by
    intro h
    obtain ⟨t, ht, hdue⟩ := h 0 rfl rfl rfl (List.cons_ne_nil _ _)
    cases List.mem_singleton.mp ht
    exact absurd hdue (by decide)
  have hlook : (machine ℕ kind).step oneSecond (.timerLoop 0)
      = some ({ oneSecond with place := .head }, []) := rfl
  obtain ⟨os, hrun, hiterations, hoccurrences⟩ := run_scheduleOneSecond kind
  obtain ⟨os', hspin, hspins, hnothing⟩ := spins hlook hmiss n
  refine ⟨scheduleOneSecond ++ List.replicate (2 * n) (.timerLoop 0), oneSecond, os ++ os',
    Machine.run_append_eq_some.mpr ⟨oneSecond, os, os', hrun, hspin, rfl⟩, ?_, ?_⟩
  · rw [List.flatten_append, iterations, List.countP_append]
    exact congrArg₂ (· + ·) hiterations hspins
  · rw [List.flatten_append, occurrences, List.countP_append]
    exact congrArg₂ (· + ·) hoccurrences hnothing

/-- **No bound is large enough.** -/
theorem oneSecond_unbounded : ¬ ∃ a b : ℕ, ∀ as s os,
    (machine ℕ .createDefault).run (started 0) as = some (s, os) →
      iterations os.flatten ≤ a + b * occurrences os.flatten := by
  rintro ⟨a, b, hbound⟩
  obtain ⟨as, s, os, hrun, hiterations, hoccurrences⟩ := oneSecond_spins .createDefault (a + b)
  have hle := hbound as s os hrun
  rw [hiterations, hoccurrences] at hle
  omega

end TimerThread
