import HttpServer.TimerThread
import Mathlib.Data.List.Nodup
import Mathlib.Data.List.Perm.Basic

/-!
# Timers fire once, in order and never early

Of the timers of a scheduler, each is with its call, in the queue, in the hands of the loop, or
done with (`Accounted`). Done with means submitted: but for one whose function is empty, for which
the loop has a test, and which goes without being submitted. A timer carries the time at which it
expires, and the loop takes it out when the clock has got there (`Punctual`). That time is the
reading of the clock at the call and the delay, as long as the sum fits into 64 bits of
nanoseconds, which is some 292 years; with a longer delay it is in the past.
-/

namespace TimerThread

variable {τ : Type*}

/-! ## The account of the timers -/

/-- The timer of an event, if it is one of making it. -/
def Event.scheduledTimer : Event τ → Option (TimerTask τ)
  | .scheduled t _ _ => some t
  | _ => none

/-- The timer of an event, if it is one of submitting its function. -/
def Event.submittedTimer : Event τ → Option (TimerTask τ)
  | .submitted t _ => some t
  | _ => none

/-- The timer of an event, if it is one of letting it go. -/
def Event.droppedTimer : Event τ → Option (TimerTask τ)
  | .dropped t => some t
  | _ => none

def scheduledTimers (events : List (Event τ)) : List (TimerTask τ) :=
  events.filterMap Event.scheduledTimer

def submittedTimers (events : List (Event τ)) : List (TimerTask τ) :=
  events.filterMap Event.submittedTimer

def droppedTimers (events : List (Event τ)) : List (TimerTask τ) :=
  events.filterMap Event.droppedTimer

/-- The timer in the hands of the loop, between the queue and `ScheduleTask`. -/
def Place.hands : Place τ → List (TimerTask τ)
  | .submit t _ => [t]
  | _ => []

/-- The timers that are not done with. -/
def pending (s : TimerThread τ) : List (TimerTask τ) := s.place.hands ++ s.timerQueue ++ s.calls

/-- **The account of the timers**: each is done with once, or it is pending. -/
structure Accounted (s : TimerThread τ) (events : List (Event τ)) : Prop where
  perm : (scheduledTimers events).Perm
    (submittedTimers events ++ droppedTimers events ++ s.pending)
  id_le : ∀ t ∈ scheduledTimers events, t.id ≤ s.nextTimerId
  nodup : ((scheduledTimers events).map TimerTask.id).Nodup

variable {kind : SchedulerKind} {s s' : TimerThread τ} {events es : List (Event τ)}

@[simp] theorem scheduledTimers_append (events es : List (Event τ)) :
    scheduledTimers (events ++ es) = scheduledTimers events ++ scheduledTimers es :=
  List.filterMap_append

@[simp] theorem submittedTimers_append (events es : List (Event τ)) :
    submittedTimers (events ++ es) = submittedTimers events ++ submittedTimers es :=
  List.filterMap_append

@[simp] theorem droppedTimers_append (events es : List (Event τ)) :
    droppedTimers (events ++ es) = droppedTimers events ++ droppedTimers es :=
  List.filterMap_append

@[simp] theorem Place.hands_wake (place : Place τ) : place.wake.hands = place.hands := by
  cases place <;> rfl

theorem pending_wake (s : TimerThread τ) : s.wake.pending = s.pending := by
  show s.place.wake.hands ++ s.timerQueue ++ s.calls = _
  rw [Place.hands_wake]
  rfl

theorem hands_await (s : TimerThread τ) (deadline : Option Int64) :
    (s.await deadline).hands = [] := by
  unfold await
  split
  · split <;> rfl
  · rfl

/-- The thread goes on without a timer in its hands. -/
theorem pending_of_place {place : Place τ} (hbefore : s.place.hands = [])
    (hafter : place.hands = []) : ({ s with place } : TimerThread τ).pending = s.pending := by
  rw [pending, pending, hbefore]
  show place.hands ++ s.timerQueue ++ s.calls = [] ++ s.timerQueue ++ s.calls
  rw [hafter]

/-- A step that neither makes a timer nor is done with one. -/
theorem Accounted.rest (h : s.Accounted events) (hscheduled : scheduledTimers es = [])
    (hsubmitted : submittedTimers es = []) (hdropped : droppedTimers es = [])
    (hpending : s'.pending.Perm s.pending) (hid : s'.nextTimerId = s.nextTimerId) :
    s'.Accounted (events ++ es) := by
  have hsame : scheduledTimers (events ++ es) = scheduledTimers events := by
    rw [scheduledTimers_append, hscheduled, List.append_nil]
  refine ⟨?_, ?_, ?_⟩
  · rw [hsame, submittedTimers_append, droppedTimers_append, hsubmitted, hdropped, List.append_nil,
      List.append_nil]
    exact h.perm.trans (hpending.symm.append_left _)
  · rw [hsame, hid]
    exact h.id_le
  · rw [hsame]
    exact h.nodup

/-- A step that makes a timer. -/
theorem Accounted.make (h : s.Accounted events) {t : TimerTask τ} (ht : t.id = s.nextTimerId + 1)
    (hscheduled : scheduledTimers es = [t]) (hsubmitted : submittedTimers es = [])
    (hdropped : droppedTimers es = []) (hpending : s'.pending.Perm (t :: s.pending))
    (hid : s'.nextTimerId = s.nextTimerId + 1) : s'.Accounted (events ++ es) := by
  have hmore : scheduledTimers (events ++ es) = scheduledTimers events ++ [t] := by
    rw [scheduledTimers_append, hscheduled]
  refine ⟨?_, fun u hu => ?_, ?_⟩
  · rw [hmore, submittedTimers_append, droppedTimers_append, hsubmitted, hdropped, List.append_nil,
      List.append_nil]
    refine (List.perm_append_singleton _ _).trans ((h.perm.cons t).trans ?_)
    exact List.perm_middle.symm.trans (hpending.symm.append_left _)
  · rw [hid]
    rw [hmore, List.mem_append, List.mem_singleton] at hu
    obtain hu | rfl := hu
    · exact Nat.le_succ_of_le (h.id_le u hu)
    · exact Nat.le_of_eq ht
  · rw [hmore, List.map_append, List.nodup_append]
    refine ⟨h.nodup, List.nodup_singleton _, fun n hn m hm => ?_⟩
    obtain ⟨u, hu, rfl⟩ := List.mem_map.mp hn
    rw [List.map_singleton, List.mem_singleton] at hm
    have hle := h.id_le u hu
    omega

/-- A step that is done with a timer. -/
theorem Accounted.done (h : s.Accounted events) {t : TimerTask τ}
    (hscheduled : scheduledTimers es = [])
    (hdone : submittedTimers es = [t] ∧ droppedTimers es = [] ∨
      submittedTimers es = [] ∧ droppedTimers es = [t])
    (hpending : s.pending.Perm (t :: s'.pending)) (hid : s'.nextTimerId = s.nextTimerId) :
    s'.Accounted (events ++ es) := by
  have hsame : scheduledTimers (events ++ es) = scheduledTimers events := by
    rw [scheduledTimers_append, hscheduled, List.append_nil]
  have hperm := h.perm.trans (hpending.append_left _)
  refine ⟨?_, ?_, ?_⟩
  · rw [hsame, submittedTimers_append, droppedTimers_append]
    refine hperm.trans ?_
    obtain ⟨hsubmitted, hdropped⟩ | ⟨hsubmitted, hdropped⟩ := hdone
    · rw [hsubmitted, hdropped, List.append_nil, List.append_assoc, List.append_assoc,
        List.append_assoc]
      refine List.Perm.append_left _ ?_
      rw [← List.append_assoc]
      exact List.perm_middle
    · rw [hsubmitted, hdropped, List.append_nil]
      exact .of_eq (by simp only [List.append_assoc, List.singleton_append])
  · rw [hsame, hid]
    exact h.id_le
  · rw [hsame]
    exact h.nodup

/-- **Each step keeps the account.** -/
theorem Steps.account {a : Action τ} (hs : Steps kind s a s' es) (h : s.Accounted events) :
    s'.Accounted (events ++ es) := by
  cases hs with
  | atOnce hcall hdelay => exact h.rest rfl rfl rfl (.refl _) rfl
  | call hcall hdelay =>
    refine h.make rfl rfl rfl rfl ?_ rfl
    rw [pending, ← List.append_assoc]
    exact List.perm_append_singleton _ _
  | @push i t ht =>
    refine h.rest rfl rfl rfl ?_ rfl
    obtain ⟨hi, rfl⟩ := List.getElem?_eq_some_iff.mp ht
    have hcalls := List.getElem_cons_eraseIdx_perm hi
    rw [pending, pending, List.append_assoc, List.append_assoc]
    exact (List.perm_middle.symm.trans (hcalls.append_left _)).append_left _
  | notify hsome => exact h.rest rfl rfl rfl (.of_eq (pending_wake s)) rfl
  | enter top hplace hrunning =>
    have hbefore : s.place.hands = [] := by rw [hplace]; rfl
    exact h.rest rfl rfl rfl (.of_eq (pending_of_place hbefore rfl)) rfl
  | leave top hplace hrunning =>
    have hbefore : s.place.hands = [] := by rw [hplace]; rfl
    exact h.rest rfl rfl rfl (.of_eq (pending_of_place hbefore rfl)) rfl
  | wait top hplace hempty =>
    have hbefore : s.place.hands = [] := by rw [hplace]; rfl
    refine h.rest rfl rfl rfl (.of_eq (pending_of_place hbefore ?_)) rfl
    cases s.timerRunning <;> rfl
  | @pop top t hplace htop hearliest hdue =>
    refine h.rest rfl rfl rfl ?_ rfl
    obtain ⟨hi, rfl⟩ := List.getElem?_eq_some_iff.mp htop
    rw [pending, pending, hplace]
    exact (List.getElem_cons_eraseIdx_perm hi).append_right _
  | early hplace hearliest hearly =>
    have hbefore : s.place.hands = [] := by rw [hplace]; rfl
    exact h.rest rfl rfl rfl (.of_eq (pending_of_place hbefore rfl)) rfl
  | resume top hplace =>
    have hbefore : s.place.hands = [] := by rw [hplace]; rfl
    exact h.rest rfl rfl rfl (.of_eq (pending_of_place hbefore (hands_await s _))) rfl
  | @submit top t now hplace place hnext =>
    have hhands : place.hands = [] := by
      obtain rfl | ⟨rfl, -⟩ := hnext <;> rfl
    refine h.done (t := t) ?_ ?_ ?_ rfl
    · cases t.func <;> rfl
    · cases hfunc : t.func with
      | none => exact Or.inr ⟨rfl, rfl⟩
      | some f => exact Or.inl ⟨rfl, rfl⟩
    · rw [pending, pending, hplace]
      show ([t] ++ s.timerQueue ++ s.calls).Perm (t :: (place.hands ++ s.timerQueue ++ s.calls))
      rw [hhands]
      exact .refl _
  | reschedule top hplace =>
    refine h.make rfl rfl rfl rfl ?_ rfl
    rw [pending, pending, hplace]
    exact .refl _
  | stop => exact h.rest rfl rfl rfl (.of_eq (pending_wake s)) rfl
  | spurious hplace => exact h.rest rfl rfl rfl (.of_eq (pending_wake s)) rfl
  | timeout hplace hover => exact h.rest rfl rfl rfl (.of_eq (pending_wake s)) rfl
  | tick hlater => exact h.rest rfl rfl rfl (.refl _) rfl

theorem accounted_of_run {clock : Int64} {as : List (Action τ)} {os : List (List (Event τ))}
    (hr : (machine τ kind).run (started clock) as = some (s, os)) : s.Accounted os.flatten := by
  refine Machine.run_invariant (I := fun s os => s.Accounted os.flatten) ?_ ?_ hr
  · exact ⟨List.Perm.refl _, List.forall_mem_nil _, List.nodup_nil⟩
  · intro s' os' a r h hstep
    rw [List.flatten_append, List.flatten_singleton]
    exact (steps_of_step hstep).account h

/-! ## The times -/

/-- What an event says of the times of its timer, and of its function. -/
def Event.Punctual : Event τ → Prop
  | .scheduled t now delay => 0 < delay ∧ t.expire = now + nanoseconds delay
  | .submitted t now => t.expire ≤ now ∧ t.func.isSome = true
  | .dropped t => t.func = none
  | _ => True

/-- The timer in the hands of the loop is due, and one that it is about to put back is
periodic. -/
def Punctual (s : TimerThread τ) : Prop :=
  match s.place with
  | .submit t _ => t.expire ≤ s.clock
  | .reschedule t _ => 0 < t.interval
  | _ => True

theorem punctual_await (s : TimerThread τ) (deadline : Option Int64) :
    ({ s with place := s.await deadline } : TimerThread τ).Punctual := by
  unfold await
  split
  · split <;> trivial
  · trivial

theorem Punctual.wake (h : s.Punctual) : s.wake.Punctual := by
  unfold Punctual TimerThread.wake at *
  cases hplace : s.place with
  | submit t now | reschedule t now =>
    rw [hplace] at h
    exact h
  | _ => trivial

/-- **Each step is punctual.** -/
theorem Steps.punctual {a : Action τ} (hs : Steps kind s a s' es) (h : s.Punctual) :
    s'.Punctual ∧ ∀ e ∈ es, e.Punctual := by
  cases hs with
  | atOnce hcall hdelay => exact ⟨h, List.forall_mem_singleton.mpr trivial⟩
  | call hcall hdelay => exact ⟨h, List.forall_mem_singleton.mpr ⟨hdelay, rfl⟩⟩
  | push ht => exact ⟨h, List.forall_mem_singleton.mpr trivial⟩
  | notify hsome => exact ⟨h.wake, List.forall_mem_nil _⟩
  | enter top hplace hrunning => exact ⟨trivial, List.forall_mem_singleton.mpr trivial⟩
  | leave top hplace hrunning => exact ⟨trivial, List.forall_mem_nil _⟩
  | wait top hplace hempty =>
    refine ⟨?_, List.forall_mem_nil _⟩
    cases s.timerRunning <;> trivial
  | pop hplace htop hearliest hdue => exact ⟨hdue, List.forall_mem_singleton.mpr trivial⟩
  | early hplace hearliest hearly => exact ⟨trivial, List.forall_mem_nil _⟩
  | resume top hplace => exact ⟨punctual_await s _, List.forall_mem_nil _⟩
  | @submit top t now hplace place hnext =>
    have hdue : t.expire ≤ s.clock := by rwa [Punctual, hplace] at h
    refine ⟨?_, List.forall_mem_singleton.mpr ?_⟩
    · obtain rfl | ⟨rfl, hperiodic⟩ := hnext
      · trivial
      · exact hperiodic
    · cases hfunc : t.func with
      | none => exact hfunc
      | some f => exact ⟨hdue, by rw [hfunc]; rfl⟩
  | @reschedule top t now hplace =>
    have hperiodic : 0 < t.interval := by rwa [Punctual, hplace] at h
    refine ⟨trivial, List.forall_mem_cons.mpr ⟨⟨hperiodic, rfl⟩, ?_⟩⟩
    exact List.forall_mem_singleton.mpr trivial
  | stop => exact ⟨h.wake, List.forall_mem_singleton.mpr trivial⟩
  | spurious hplace => exact ⟨h.wake, List.forall_mem_singleton.mpr trivial⟩
  | timeout hplace hover => exact ⟨h.wake, List.forall_mem_nil _⟩
  | tick hlater =>
    refine ⟨?_, List.forall_mem_nil _⟩
    unfold Punctual at *
    cases hplace : s.place with
    | submit t now =>
      rw [hplace] at h
      exact Int64.le_trans h hlater
    | reschedule t now =>
      rw [hplace] at h
      exact h
    | _ => trivial

theorem punctual_of_run {clock : Int64} {as : List (Action τ)} {os : List (List (Event τ))}
    (hr : (machine τ kind).run (started clock) as = some (s, os)) :
    ∀ e ∈ os.flatten, e.Punctual := by
  have hall : s.Punctual ∧ ∀ e ∈ os.flatten, e.Punctual := by
    refine Machine.run_invariant (I := fun s os => s.Punctual ∧ ∀ e ∈ os.flatten, e.Punctual)
      ?_ ?_ hr
    · exact ⟨trivial, List.forall_mem_nil _⟩
    · intro s' os' a r h hstep
      obtain ⟨hplace, hes⟩ := (steps_of_step hstep).punctual h.1
      rw [List.flatten_append, List.flatten_singleton]
      exact ⟨hplace, List.forall_mem_append.mpr ⟨h.2, hes⟩⟩
  exact hall.2

/-- The delay has so many nanoseconds, and the sum is a point in time. -/
def Fits (now delay : Int64) : Prop :=
  delay.toInt * 1000000 ≤ Int64.maxValue.toInt ∧
    now.toInt + delay.toInt * 1000000 ≤ Int64.maxValue.toInt

theorem toInt_expire {now delay : Int64} (h : Fits now delay) (hdelay : 0 < delay) :
    (now + nanoseconds delay).toInt = now.toInt + delay.toInt * 1000000 := by
  obtain ⟨hmul, hadd⟩ := h
  rw [Int64.toInt_maxValue] at hmul hadd
  have hpos : 0 < delay.toInt := Int64.lt_iff_toInt_lt.mp hdelay
  have hnow := now.le_toInt
  have hproduct : (nanoseconds delay).toInt = delay.toInt * 1000000 := by
    have hmillion : (1000000 : Int64).toInt = 1000000 := rfl
    rw [nanoseconds, Int64.toInt_mul, hmillion]
    exact Int.bmod_eq_of_le (by omega) (by omega)
  rw [Int64.toInt_add, hproduct]
  exact Int.bmod_eq_of_le (by omega) (by omega)

/-- **No timer fires early.** -/
theorem not_early {clock : Int64} {as : List (Action τ)} {os : List (List (Event τ))}
    (hr : (machine τ kind).run (started clock) as = some (s, os)) {t : TimerTask τ}
    {now delay now' : Int64} (hscheduled : .scheduled t now delay ∈ os.flatten)
    (hsubmitted : .submitted t now' ∈ os.flatten) (hfits : Fits now delay) :
    now.toInt + delay.toInt * 1000000 ≤ now'.toInt := by
  have hpunctual := punctual_of_run hr
  obtain ⟨hdelay, hexpire⟩ : 0 < delay ∧ t.expire = now + nanoseconds delay :=
    hpunctual _ hscheduled
  have hdue : t.expire ≤ now' := (hpunctual _ hsubmitted).1
  rw [hexpire, Int64.le_iff_toInt_le, toInt_expire hfits hdelay] at hdue
  exact hdue

/-! ## The order -/

/-- When a timer is popped, none in the heap expires earlier. -/
def PopsEarliest (kind : SchedulerKind) (s : TimerThread τ) (a : Action τ) : Prop :=
  ∀ s' es t, s.step kind a = some (s', es) → .popped t ∈ es → s.Earliest t

theorem Steps.popsEarliest {a : Action τ} (hs : Steps kind s a s' es) {t : TimerTask τ}
    (ht : .popped t ∈ es) : s.Earliest t := by
  cases hs with
  | pop hplace htop hearliest hdue =>
    cases List.mem_singleton.mp ht
    exact hearliest
  | @submit top u now hplace place hnext =>
    cases hfunc : u.func <;> simp [hfunc] at ht
  | _ => simp at ht

/-- **Timers fire once, in order and never early**: in every run each timer is submitted at most
once, and not before its delay is over; when one is popped, none in the heap expires earlier;
each is submitted, in the hands of the loop, in the heap or with its call, but for those that have
no function and are dropped when their time has come; and with no delay a function is submitted at
once. -/
theorem one_shot_timers {clock : Int64} {as : List (Action τ)} {os : List (List (Event τ))}
    (hr : (machine τ kind).run (started clock) as = some (s, os)) :
    ((submittedTimers os.flatten).map TimerTask.id).Nodup
      ∧ (∀ t now delay now', .scheduled t now delay ∈ os.flatten → .submitted t now' ∈ os.flatten →
        Fits now delay → now.toInt + delay.toInt * 1000000 ≤ now'.toInt)
      ∧ (machine τ kind).Along (PopsEarliest kind) (started clock) as
      ∧ (scheduledTimers os.flatten).Perm (submittedTimers os.flatten ++ droppedTimers os.flatten
        ++ (s.place.hands ++ s.timerQueue ++ s.calls))
      ∧ (∀ t, .dropped t ∈ os.flatten → t.func = none)
      ∧ ∀ task delay, delay ≤ 0 →
        s.step kind (.scheduleAfter task delay) = some (s, [.submittedAtOnce task]) := by
  have haccount := accounted_of_run hr
  refine ⟨?_, ?_, ?_, haccount.perm, ?_, ?_⟩
  · have hnodup := (haccount.perm.map TimerTask.id).nodup_iff.mp haccount.nodup
    rw [List.map_append, List.map_append, List.append_assoc] at hnodup
    exact (List.nodup_append.mp hnodup).1
  · exact fun t now delay now' => not_early hr
  · refine Machine.along_of_along (I := fun _ => True) (fun _ _ _ _ _ _ => trivial) ?_ trivial
      (Machine.along_true _ _)
    exact fun s a r _ _ _ s' es t hstep ht => (steps_of_step hstep).popsEarliest ht
  · exact fun t ht => punctual_of_run hr _ ht
  · intro task delay hdelay
    rw [step, scheduleAfter, schedule, if_pos hdelay]

/-- A timer of twenty milliseconds, one of five behind it, and both are due. -/
def laterFirst : List (Action ℕ) :=
  [.scheduleAfter (some 1) 20, .push 0, .notifyOne, .scheduleAfter (some 2) 5, .push 0,
    .timerLoop 0, .tick 30000000, .timerLoop 0, .timerLoop 0, .timerLoop 0, .timerLoop 0,
    .timerLoop 0, .scheduleAfter (some 3) 0]

/-- The one that is due first is submitted first, and neither early. -/
theorem one_shot_timers_laterFirst : ∃ s os,
    (machine ℕ .createDefault).run (started 0) laterFirst = some (s, os) ∧
      (submittedTimers os.flatten).map TimerTask.func = [some 2, some 1] ∧
      (machine ℕ .createDefault).Along (PopsEarliest .createDefault) (started 0) laterFirst ∧
      s.step .createDefault (.scheduleAfter none 0) = some (s, [.submittedAtOnce none]) := by
  have hall := one_shot_timers (rfl : (machine ℕ .createDefault).run (started 0) laterFirst = _)
  exact ⟨_, _, rfl, rfl, hall.2.2.1, hall.2.2.2.2.2 none 0 (by decide)⟩

/-- A function that is empty, and five milliseconds. -/
def emptyFunction : List (Action ℕ) :=
  [.scheduleAfter none 5, .push 0, .notifyOne, .timerLoop 0, .tick 5000000, .timerLoop 0,
    .timerLoop 0]

/-- `std::chrono::milliseconds::max()` -/
def farDelay : List (Action ℕ) :=
  [.scheduleAfter (some 7) Int64.maxValue, .push 0, .notifyOne, .timerLoop 0, .timerLoop 0,
    .timerLoop 0]

/-- **A timer without a function is popped and not submitted**, and one whose delay does not fit
the clock is submitted at once. -/
theorem emptyFunction_and_farDelay :
    (∃ s os t, (machine ℕ .createDefault).run (started 0) emptyFunction = some (s, os) ∧
      t ∈ scheduledTimers os.flatten ∧ t ∉ submittedTimers os.flatten ∧
      t ∉ s.place.hands ++ s.timerQueue ++ s.calls) ∧
    ∃ s os t, (machine ℕ .createDefault).run (started 0) farDelay = some (s, os) ∧
      .scheduled t 0 Int64.maxValue ∈ os.flatten ∧ .submitted t 0 ∈ os.flatten ∧
      ¬ (0 : Int64).toInt + Int64.maxValue.toInt * 1000000 ≤ (0 : Int64).toInt :=
  ⟨⟨_, _, ⟨none, 5000000, 0, 1⟩, rfl, by decide, by decide, by decide⟩,
    _, _, ⟨some 7, -1000000, 0, 1⟩, rfl, by decide, by decide, by decide⟩

end TimerThread
