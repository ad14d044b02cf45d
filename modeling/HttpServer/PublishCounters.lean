import HttpServer.Machine
import HttpServer.Threads
import Mathlib.Algebra.BigOperators.Group.Finset.Piecewise
import Mathlib.Data.Fintype.Basic
import Mathlib.Logic.Function.Basic

/-!
# The statistics of the event dispatcher

`PublishEvent`, `PublishData`, `PublishError` and `GetStats` of `core/Event/event_dispatcher.cpp`,
called by any number of threads. A publication is counted twice: `total_events_` and its likes
are atomic and are incremented without a lock; the counters that `GetStats` returns are copies of
them, made under `mutex_` by whoever publishes, one after the other. Between the increment and
the copy other threads count, so that a thread may copy what others have counted, or copy a
number that is out of date when it is stored.

The copies never decrease and never run ahead of the publications (`Kept.copied`), because nobody
stores a number while another thread is between loading and storing one. And a copy that is out
of date is not the last word: the thread whose increment it misses has yet to make its own
(`Kept.fresh`). So when no call is in progress, the counts are exact (`stats_consistent`).
-/

/-- The counters: `total_events_`, `total_data_`, `total_errors_` and `active_subscribers_`, and
the members of `DispatchStats` of these names. -/
inductive DispatchCounter
  | totalEvents
  | totalData
  | totalErrors
  | activeSubscribers
  deriving DecidableEq, Repr

/-- What a call publishes. -/
inductive PublishKind (E : Type*)
  | event (event : E)
  | data
  | error
  deriving DecidableEq

/-- The counter that a call increments. -/
def PublishKind.counter {E : Type*} : PublishKind E → DispatchCounter
  | .event _ => .totalEvents
  | .data => .totalData
  | .error => .totalErrors

/-- Where a thread is. -/
inductive PublishPoint (E : Type*)
  /-- It does not publish. -/
  | idle
  /-- `PublishEvent`, before `applyFilters` -/
  | filtering (event : E)
  /-- Before the increment. -/
  | counting (kind : PublishKind E)
  /-- Before `mutex_` is locked. -/
  | locking (kind : PublishKind E)
  /-- Before `event_counts[event]++`, with the lock. -/
  | eventCounts (event : E)
  /-- Before a counter is loaded, with the lock. -/
  | loading (c : DispatchCounter)
  /-- Before what has been loaded is stored, with the lock. -/
  | storing (c : DispatchCounter) (value : ℕ)
  /-- Behind the last copy, with the lock. -/
  | unlocking
  /-- `dispatchTask` -/
  | dispatching
  deriving DecidableEq

/-- The assignments of the critical section, in their order. -/
def DispatchCounter.next {E : Type*} : DispatchCounter → PublishPoint E
  | .totalEvents => .loading .totalData
  | .totalData => .loading .totalErrors
  | .totalErrors => .loading .activeSubscribers
  | .activeSubscribers => .unlocking

/-- The counters of a dispatcher with the threads that publish, and how many publications have
been accepted: calls of `PublishData` and `PublishError`, and those of `PublishEvent` that the
filters let pass. -/
structure PublishCounters (E : Type*) where
  totals : DispatchCounter → ℕ := fun _ => 0
  stats : DispatchCounter → ℕ := fun _ => 0
  eventCounts : E → ℕ := fun _ => 0
  locked : Bool := false
  threads : List (PublishPoint E)
  accepted : DispatchCounter → ℕ := fun _ => 0

namespace PublishCounters

variable {E : Type*} [DecidableEq E]

/-- What the threads do: they enter a call or go on in it, where `passes` is the answer of the
filters if they are asked. Who is not publishing may change the number of subscribers or ask for
the statistics. -/
inductive Action (E : Type*)
  | publishEvent (i : ℕ) (event : E)
  | publishData (i : ℕ)
  | publishError (i : ℕ)
  | advance (i : ℕ) (passes : Bool)
  | setSubscribers (n : ℕ)
  | getStats

/-! ## The source -/

section Source

variable (s : PublishCounters E)

/-- A thread moves on. -/
def moveTo (i : ℕ) (p : PublishPoint E) : PublishCounters E :=
  { s with threads := s.threads.set i p }

/-- A publication is accepted. -/
def accept (c : DispatchCounter) : PublishCounters E :=
  { s with accepted := Function.update s.accepted c (s.accepted c + 1) }

/-- An atomic counter is incremented. -/
def count (c : DispatchCounter) : PublishCounters E :=
  { s with totals := Function.update s.totals c (s.totals c + 1) }

/-- `event_counts[event]++` -/
def countEvent (event : E) : PublishCounters E :=
  { s with eventCounts := Function.update s.eventCounts event (s.eventCounts event + 1) }

/-- A member of `stats_` is assigned. -/
def store (c : DispatchCounter) (value : ℕ) : PublishCounters E :=
  { s with stats := Function.update s.stats c value }

/-- `PublishEvent`, `PublishData` and `PublishError` step by step: what a thread does at its
place, and the place it gets to. A lock can be taken while nobody has it. -/
def proceed (passes : Bool) : PublishPoint E → Option (PublishCounters E × PublishPoint E)
  | .idle => none
  | .filtering event =>
    if s.locked then none
    else if passes then some (s.accept .totalEvents, .counting (.event event))
    else some (s, .idle)
  | .counting kind => some (s.count kind.counter, .locking kind)
  | .locking kind =>
    if s.locked then none
    else some ({ s with locked := true }, match kind with
      | .event event => .eventCounts event
      | _ => .loading .totalEvents)
  | .eventCounts event => some (s.countEvent event, .loading .totalEvents)
  | .loading c => some (s, .storing c (s.totals c))
  | .storing c value => some (s.store c value, c.next)
  | .unlocking => some ({ s with locked := false }, .dispatching)
  | .dispatching => some (s, .idle)

/-- A thread goes on. -/
def advance (i : ℕ) (passes : Bool) : Option (PublishCounters E) :=
  s.threads[i]?.bind fun p => (s.proceed passes p).map fun r => r.1.moveTo i r.2

/-- The lines of `RegisterSubscriber`, `UnregisterSubscriber` and `UnregisterAllSubscribers` that
count, under the lock. -/
def setSubscribers (n : ℕ) : PublishCounters E :=
  { s with
    totals := Function.update s.totals .activeSubscribers n
    stats := Function.update s.stats .activeSubscribers n }

/-- `GetStats`, under the lock. -/
def getStats : (DispatchCounter → ℕ) × (E → ℕ) := (s.stats, s.eventCounts)

/-- What a step does, with what it returns. -/
def step : Action E → Option (PublishCounters E × Option ((DispatchCounter → ℕ) × (E → ℕ)))
  | .publishEvent i event =>
    if s.threads[i]? = some .idle then some (s.moveTo i (.filtering event), none) else none
  | .publishData i =>
    if s.threads[i]? = some .idle then
      some ((s.accept .totalData).moveTo i (.counting .data), none)
    else none
  | .publishError i =>
    if s.threads[i]? = some .idle then
      some ((s.accept .totalErrors).moveTo i (.counting .error), none)
    else none
  | .advance i passes => (s.advance i passes).map fun s' => (s', none)
  | .setSubscribers n => if s.locked then none else some (s.setSubscribers n, none)
  | .getStats => if s.locked then none else some (s, some s.getStats)

end Source

/-- The dispatcher and the threads that use it. -/
def machine (E : Type*) [DecidableEq E] :
    Machine (PublishCounters E) (Action E) (Option ((DispatchCounter → ℕ) × (E → ℕ))) where
  step := step

/-- A new dispatcher, and so many threads. -/
def started (E : Type*) (n : ℕ) : PublishCounters E := { threads := List.replicate n .idle }

/-! ## One step -/

/-- What a thread can do at its place. -/
inductive Proceeds (s : PublishCounters E) :
    PublishPoint E → PublishCounters E → PublishPoint E → Prop
  | enterEvent (event : E) : Proceeds s .idle s (.filtering event)
  | enter (kind : PublishKind E) (hkind : ∀ event, kind ≠ .event event) :
    Proceeds s .idle (s.accept kind.counter) (.counting kind)
  | rejected (event : E) (h : s.locked = false) : Proceeds s (.filtering event) s .idle
  | accepted (event : E) (h : s.locked = false) :
    Proceeds s (.filtering event) (s.accept .totalEvents) (.counting (.event event))
  | count (kind : PublishKind E) :
    Proceeds s (.counting kind) (s.count kind.counter) (.locking kind)
  | lockEvent (event : E) (h : s.locked = false) :
    Proceeds s (.locking (.event event)) { s with locked := true } (.eventCounts event)
  | lock (kind : PublishKind E) (hkind : ∀ event, kind ≠ .event event) (h : s.locked = false) :
    Proceeds s (.locking kind) { s with locked := true } (.loading .totalEvents)
  | countEvent (event : E) :
    Proceeds s (.eventCounts event) (s.countEvent event) (.loading .totalEvents)
  | load (c : DispatchCounter) : Proceeds s (.loading c) s (.storing c (s.totals c))
  | store (c : DispatchCounter) (value : ℕ) :
    Proceeds s (.storing c value) (s.store c value) c.next
  | unlock : Proceeds s .unlocking { s with locked := false } .dispatching
  | done : Proceeds s .dispatching s .idle

theorem proceeds_of_proceed {s : PublishCounters E} {passes : Bool} {p : PublishPoint E}
    {r : PublishCounters E × PublishPoint E} (h : s.proceed passes p = some r) :
    s.Proceeds p r.1 r.2 := by
  cases p with
  | idle => cases h
  | filtering event =>
    obtain ⟨hfree, h⟩ := Option.ite_none_left_eq_some.mp h
    rw [Bool.not_eq_true] at hfree
    cases passes <;> cases h
    · exact .rejected event hfree
    · exact .accepted event hfree
  | counting kind =>
    cases h
    exact .count kind
  | locking kind =>
    obtain ⟨hfree, h⟩ := Option.ite_none_left_eq_some.mp h
    rw [Bool.not_eq_true] at hfree
    cases kind with
    | event event =>
      cases h
      exact .lockEvent event hfree
    | data =>
      cases h
      exact .lock .data (fun _ => by simp) hfree
    | error =>
      cases h
      exact .lock .error (fun _ => by simp) hfree
  | eventCounts event =>
    cases h
    exact .countEvent event
  | loading c =>
    cases h
    exact .load c
  | storing c value =>
    cases h
    exact .store c value
  | unlocking =>
    cases h
    exact .unlock
  | dispatching =>
    cases h
    exact .done

end PublishCounters

namespace PublishPoint

variable {E : Type*}

/-- It has the lock. -/
def inside : PublishPoint E → Bool
  | .eventCounts _ | .loading _ | .storing _ _ | .unlocking => true
  | _ => false

/-- It has yet to increment a counter. -/
def uncounted (c : DispatchCounter) : PublishPoint E → Bool
  | .counting kind => kind.counter = c
  | _ => false

/-- It has yet to increment the count of its event. -/
def eventUncounted : PublishPoint E → Bool
  | .counting (.event _) | .locking (.event _) | .eventCounts _ => true
  | _ => false

/-- The counters in the order in which they are copied. -/
def rank : DispatchCounter → ℕ
  | .totalEvents => 0
  | .totalData => 1
  | .totalErrors => 2
  | .activeSubscribers => 3

/-- It has yet to load a counter. -/
def owes (c : DispatchCounter) : PublishPoint E → Bool
  | .locking _ | .eventCounts _ => true
  | .loading c' => rank c' ≤ rank c
  | .storing c' _ => rank c' < rank c
  | _ => false

end PublishPoint

namespace PublishCounters

variable {E : Type*} [DecidableEq E]

/-! ## What every step keeps -/

/-- **The invariant**, of the counters and the places of the threads. -/
structure Kept [Fintype E] (s : PublishCounters E) (threads : List (PublishPoint E)) : Prop where
  /-- One thread has the lock if it is taken, and else none. -/
  mutex : threads.countP PublishPoint.inside = s.locked.toNat
  counted : ∀ c, c ≠ .activeSubscribers →
    s.totals c + threads.countP (PublishPoint.uncounted c) = s.accepted c
  /-- The copies never run ahead, and what is loaded is not behind the copy. -/
  copied : ∀ c, c ≠ .activeSubscribers → s.stats c ≤ s.totals c ∧
    ∀ v, .storing c v ∈ threads → s.stats c ≤ v ∧ v ≤ s.totals c
  /-- A copy is up to date, or a thread has yet to make one that is. -/
  fresh : ∀ c, c ≠ .activeSubscribers → s.stats c = s.totals c ∨
    ∃ p ∈ threads, p.owes c = true ∨ p = .storing c (s.totals c)
  summed : ∑ e, s.eventCounts e + threads.countP PublishPoint.eventUncounted
    = s.accepted .totalEvents

section Step

variable {s s' : PublishCounters E} {p q : PublishPoint E} {rest threads : List (PublishPoint E)}

omit [DecidableEq E] in
theorem Kept.of_perm [Fintype E] (h : s.Kept threads) {threads' : List (PublishPoint E)}
    (hperm : threads.Perm threads') : s.Kept threads' where
  mutex := by rw [← hperm.countP_eq, h.mutex]
  counted c hc := by rw [← hperm.countP_eq, h.counted c hc]
  copied c hc := ⟨(h.copied c hc).1, fun v hv => (h.copied c hc).2 v (hperm.mem_iff.mpr hv)⟩
  fresh c hc := (h.fresh c hc).imp_right fun ⟨p, hp, hpc⟩ => ⟨p, hperm.mem_iff.mp hp, hpc⟩
  summed := by rw [← hperm.countP_eq, h.summed]

/-- The lock is taken by who finds it free, and given back by who has it. -/
theorem Proceeds.mutex (hp : s.Proceeds p s' q)
    (h : (p :: rest).countP PublishPoint.inside = s.locked.toNat) :
    (q :: rest).countP PublishPoint.inside = s'.locked.toNat := by
  rw [List.countP_cons] at h ⊢
  cases hp with
  | store c value => cases c <;> exact h
  | lockEvent event hfree | lock kind hkind hfree =>
    rw [hfree] at h
    have hnone : rest.countP PublishPoint.inside = 0 := h
    rw [hnone]
    rfl
  | unlock =>
    have hle : s.locked.toNat ≤ 1 := Bool.toNat_le _
    have hnone : rest.countP PublishPoint.inside = 0 := by
      have hone : rest.countP PublishPoint.inside + 1 = s.locked.toNat := h
      omega
    rw [hnone]
    rfl
  | _ => exact h

/-- A publication is accepted before it is counted, and counted once. -/
theorem Proceeds.counted (hp : s.Proceeds p s' q) {c : DispatchCounter}
    (h : s.totals c + (p :: rest).countP (PublishPoint.uncounted c) = s.accepted c) :
    s'.totals c + (q :: rest).countP (PublishPoint.uncounted c) = s'.accepted c := by
  rw [List.countP_cons] at h ⊢
  -- what is accepted has yet to be counted
  have hadd : ∀ kind : PublishKind E,
      s.totals c + rest.countP (PublishPoint.uncounted c) = s.accepted c →
      (s.accept kind.counter).totals c + (rest.countP (PublishPoint.uncounted c)
        + if (PublishPoint.counting kind).uncounted c = true then 1 else 0)
      = (s.accept kind.counter).accepted c := by
    intro kind h
    show s.totals c + (_ + if decide (kind.counter = c) = true then 1 else 0)
      = Function.update s.accepted kind.counter (s.accepted kind.counter + 1) c
    by_cases hc : kind.counter = c
    · subst hc
      rw [Function.update_self, if_pos (decide_eq_true rfl)]
      omega
    · rw [Function.update_of_ne (Ne.symm hc), if_neg (by simpa using hc)]
      exact h
  cases hp with
  | store c' value => cases c' <;> exact h
  | enter kind hkind => exact hadd kind h
  | accepted event hfree => exact hadd (.event event) h
  | count kind =>
    show Function.update s.totals kind.counter _ c + rest.countP _ = s.accepted c
    have h : s.totals c + (rest.countP (PublishPoint.uncounted c)
      + if decide (kind.counter = c) = true then 1 else 0) = s.accepted c := h
    by_cases hc : kind.counter = c
    · subst hc
      rw [if_pos (decide_eq_true rfl)] at h
      rw [Function.update_self]
      omega
    · rw [if_neg (by simpa using hc)] at h
      rw [Function.update_of_ne (Ne.symm hc)]
      exact h
  | _ => exact h

/-- An event is accepted before it is counted among its like, and counted once. -/
theorem Proceeds.summed [Fintype E] (hp : s.Proceeds p s' q)
    (h : ∑ e, s.eventCounts e + (p :: rest).countP PublishPoint.eventUncounted
      = s.accepted .totalEvents) :
    ∑ e, s'.eventCounts e + (q :: rest).countP PublishPoint.eventUncounted
      = s'.accepted .totalEvents := by
  rw [List.countP_cons] at h ⊢
  cases hp with
  | store c value => cases c <;> exact h
  | enter kind hkind =>
    cases kind with
    | event event => exact absurd rfl (hkind event)
    | _ => exact h
  | accepted event hfree =>
    have h : ∑ e, s.eventCounts e + rest.countP PublishPoint.eventUncounted
      = s.accepted .totalEvents := h
    show ∑ e, s.eventCounts e + (rest.countP PublishPoint.eventUncounted + 1)
      = Function.update s.accepted .totalEvents (s.accepted .totalEvents + 1) .totalEvents
    rw [Function.update_self, ← h, Nat.add_assoc]
  | count kind => cases kind <;> exact h
  | lock kind hkind hfree =>
    cases kind with
    | event event => exact absurd rfl (hkind event)
    | _ => exact h
  | countEvent event =>
    have h : ∑ e, s.eventCounts e + (rest.countP PublishPoint.eventUncounted + 1)
      = s.accepted .totalEvents := h
    show ∑ e, Function.update s.eventCounts event (s.eventCounts event + 1) e
      + (rest.countP PublishPoint.eventUncounted + 0) = s.accepted .totalEvents
    rw [Finset.sum_update_of_mem (Finset.mem_univ event), ← h,
      ← Finset.add_sum_erase _ _ (Finset.mem_univ event), Finset.sdiff_singleton_eq_erase]
    omega
  | _ => exact h

omit [DecidableEq E] in
/-- While a thread is inside, no other is between loading and storing. -/
theorem not_storing_of_inside (hmutex : (p :: rest).countP PublishPoint.inside = s.locked.toNat)
    (hp : p.inside = true) (c : DispatchCounter) (v : ℕ) : .storing c v ∉ rest := by
  intro hv
  have hle : s.locked.toNat ≤ 1 := Bool.toNat_le _
  have hout := Threads.eq_false_of_countP_le_one (List.Perm.refl (p :: rest)) hp
    (by omega) _ hv
  cases hout

/-- The copies stay behind: what is stored has been loaded since the last store. -/
theorem Proceeds.copied (hp : s.Proceeds p s' q)
    (hmutex : (p :: rest).countP PublishPoint.inside = s.locked.toNat) {c : DispatchCounter}
    (h : s.stats c ≤ s.totals c ∧
      ∀ v, .storing c v ∈ p :: rest → s.stats c ≤ v ∧ v ≤ s.totals c) :
    s'.stats c ≤ s'.totals c ∧
      ∀ v, .storing c v ∈ q :: rest → s'.stats c ≤ v ∧ v ≤ s'.totals c := by
  obtain ⟨hle, hall⟩ := h
  -- what concerns the other threads
  have hrest : ∀ v, .storing c v ∈ rest → s.stats c ≤ v ∧ v ≤ s.totals c :=
    fun v hv => hall v (List.mem_cons_of_mem p hv)
  cases hp with
  | count kind =>
    have hmono : s.totals c ≤ (s.count kind.counter).totals c := by
      show _ ≤ Function.update s.totals kind.counter (s.totals kind.counter + 1) c
      by_cases hc : c = kind.counter
      · subst hc
        rw [Function.update_self]
        exact Nat.le_succ _
      · rw [Function.update_of_ne hc]
    refine ⟨hle.trans hmono, fun v hv => ?_⟩
    obtain hv | hv := List.mem_cons.mp hv
    · cases hv
    · exact ⟨(hrest v hv).1, (hrest v hv).2.trans hmono⟩
  | load c' =>
    refine ⟨hle, fun v hv => ?_⟩
    obtain hv | hv := List.mem_cons.mp hv
    · cases hv
      exact ⟨hle, le_refl _⟩
    · exact hrest v hv
  | store c' value =>
    have hnone := not_storing_of_inside hmutex rfl c
    by_cases hc : c = c'
    · subst hc
      obtain ⟨-, hvalue⟩ := hall value List.mem_cons_self
      refine ⟨?_, fun v hv => ?_⟩
      · show Function.update s.stats c value c ≤ _
        rw [Function.update_self]
        exact hvalue
      · obtain hv | hv := List.mem_cons.mp hv
        · cases c <;> cases hv
        · exact absurd hv (hnone v)
    · refine ⟨?_, fun v hv => ?_⟩
      · show Function.update s.stats c' value c ≤ _
        rw [Function.update_of_ne hc]
        exact hle
      · obtain hv | hv := List.mem_cons.mp hv
        · cases c' <;> cases hv
        · exact absurd hv (hnone v)
  | _ =>
    refine ⟨hle, fun v hv => ?_⟩
    obtain hv | hv := List.mem_cons.mp hv
    · cases hv
    · exact hrest v hv

omit [DecidableEq E] in
/-- The copies begin with the events. -/
theorem owes_first (c : DispatchCounter) :
    (PublishPoint.loading .totalEvents : PublishPoint E).owes c = true := by
  cases c <;> rfl

omit [DecidableEq E] in
/-- Behind a copy come those of the later counters. -/
theorem owes_next {c c' : DispatchCounter}
    (h : (PublishPoint.storing c' 0 : PublishPoint E).owes c = true) :
    (c'.next : PublishPoint E).owes c = true := by
  cases c' <;> cases c <;> first | rfl | cases h

omit [DecidableEq E] in
/-- Who has yet to load several counters begins with the first. -/
theorem owes_storing {c c' : DispatchCounter} (hc : c ≠ c')
    (h : (PublishPoint.loading c' : PublishPoint E).owes c = true) (v : ℕ) :
    (PublishPoint.storing c' v : PublishPoint E).owes c = true := by
  cases c' <;> cases c <;> first | rfl | exact absurd rfl hc | cases h

/-- **A copy that is out of date is not the last.** -/
theorem Proceeds.fresh (hp : s.Proceeds p s' q) {c : DispatchCounter}
    (hcopied : s.stats c ≤ s.totals c ∧
      ∀ v, .storing c v ∈ p :: rest → s.stats c ≤ v ∧ v ≤ s.totals c)
    (h : s.stats c = s.totals c ∨
      ∃ p' ∈ p :: rest, p'.owes c = true ∨ p' = .storing c (s.totals c)) :
    s'.stats c = s'.totals c ∨
      ∃ p' ∈ q :: rest, p'.owes c = true ∨ p' = .storing c (s'.totals c) := by
  -- a step that leaves both numbers alone, and after which the thread owes what it has owed
  have hkeep : s'.stats c = s.stats c → s'.totals c = s.totals c →
      (p.owes c = true ∨ p = .storing c (s.totals c) → q.owes c = true) →
      s'.stats c = s'.totals c ∨
        ∃ p' ∈ q :: rest, p'.owes c = true ∨ p' = .storing c (s'.totals c) := by
    intro hstats htotals hq
    rw [hstats, htotals]
    refine h.imp_right fun ⟨p', hmem, hp'⟩ => ?_
    obtain rfl | hmem := List.mem_cons.mp hmem
    · exact ⟨q, List.mem_cons_self, Or.inl (hq hp')⟩
    · exact ⟨p', List.mem_cons_of_mem q hmem, hp'⟩
  cases hp with
  | count kind => exact Or.inr ⟨_, List.mem_cons_self, Or.inl rfl⟩
  | load c' =>
    by_cases hc : c = c'
    · subst hc
      exact Or.inr ⟨_, List.mem_cons_self, Or.inr rfl⟩
    · refine hkeep rfl rfl fun hp => ?_
      obtain hp | hp := hp
      · exact owes_storing hc hp _
      · cases hp
  | store c' value =>
    by_cases hc : c = c'
    · subst hc
      obtain ⟨hle, hall⟩ := hcopied
      obtain ⟨hlow, hhigh⟩ := hall value List.mem_cons_self
      have hself : (s.store c value).stats c = value := Function.update_self ..
      rw [hself]
      obtain heq | ⟨p', hmem, hp'⟩ := h
      · exact Or.inl (Nat.le_antisymm hhigh (heq.symm.le.trans hlow))
      · obtain rfl | hmem := List.mem_cons.mp hmem
        · obtain hp' | hp' := hp'
          · exact absurd (of_decide_eq_true hp') (Nat.lt_irrefl _)
          · cases hp'
            exact Or.inl rfl
        · exact Or.inr ⟨p', List.mem_cons_of_mem _ hmem, hp'⟩
    · refine hkeep (Function.update_of_ne hc ..) rfl fun hp => ?_
      obtain hp | hp := hp
      · exact owes_next hp
      · cases hp
        exact absurd rfl hc
  | lockEvent event hfree => exact hkeep rfl rfl fun _ => rfl
  | lock kind hkind hfree => exact hkeep rfl rfl fun _ => owes_first c
  | countEvent event => exact hkeep rfl rfl fun _ => owes_first c
  | _ =>
    refine hkeep rfl rfl fun hp => ?_
    obtain hp | hp := hp <;> cases hp

/-- **A thread that goes on keeps the invariant.** -/
theorem Kept.proceeds [Fintype E] (h : s.Kept (p :: rest)) (hp : s.Proceeds p s' q) :
    s'.Kept (q :: rest) where
  mutex := hp.mutex h.mutex
  counted c hc := hp.counted (h.counted c hc)
  copied c hc := hp.copied h.mutex (h.copied c hc)
  fresh c hc := hp.fresh (h.copied c hc) (h.fresh c hc)
  summed := hp.summed h.summed

theorem Proceeds.threads_eq (hp : s.Proceeds p s' q) : s'.threads = s.threads := by
  cases hp <;> rfl

/-- A copy is never replaced by a smaller number. -/
theorem Proceeds.stats_le (hp : s.Proceeds p s' q) {c : DispatchCounter}
    (hcopied : ∀ v, .storing c v ∈ p :: rest → s.stats c ≤ v ∧ v ≤ s.totals c) :
    s.stats c ≤ s'.stats c := by
  cases hp with
  | store c' value =>
    show _ ≤ Function.update s.stats c' value c
    by_cases hc : c = c'
    · subst hc
      rw [Function.update_self]
      exact (hcopied value List.mem_cons_self).1
    · rw [Function.update_of_ne hc]
  | _ => exact le_refl _

/-- What a step of the whole does: a thread goes on, or somebody who has the lock sets the number
of subscribers or reads the statistics. -/
theorem step_cases {a : Action E} {r : PublishCounters E × Option ((DispatchCounter → ℕ) × (E → ℕ))}
    (hr : s.step a = some r) :
    (∃ i p s' q, s.threads[i]? = some p ∧ s.Proceeds p s' q ∧ r.1 = s'.moveTo i q
        ∧ s'.threads = s.threads)
      ∨ (∃ n, r.1 = s.setSubscribers n) ∨ r.1 = s := by
  cases a with
  | publishEvent i event =>
    obtain ⟨hi, he⟩ := Option.ite_none_right_eq_some.mp hr
    cases he
    exact Or.inl ⟨i, _, s, _, hi, .enterEvent event, rfl, rfl⟩
  | publishData i =>
    obtain ⟨hi, he⟩ := Option.ite_none_right_eq_some.mp hr
    cases he
    exact Or.inl ⟨i, _, _, _, hi, .enter .data (fun _ => by simp), rfl, rfl⟩
  | publishError i =>
    obtain ⟨hi, he⟩ := Option.ite_none_right_eq_some.mp hr
    cases he
    exact Or.inl ⟨i, _, _, _, hi, .enter .error (fun _ => by simp), rfl, rfl⟩
  | advance i passes =>
    obtain ⟨s', hs', rfl⟩ := Option.map_eq_some_iff.mp hr
    obtain ⟨p, hi, hp⟩ := Option.bind_eq_some_iff.mp hs'
    obtain ⟨⟨s'', q⟩, hq, rfl⟩ := Option.map_eq_some_iff.mp hp
    have hproceeds := proceeds_of_proceed hq
    exact Or.inl ⟨i, p, s'', q, hi, hproceeds, rfl, hproceeds.threads_eq⟩
  | setSubscribers n =>
    obtain ⟨-, he⟩ := Option.ite_none_left_eq_some.mp hr
    cases he
    exact Or.inr (Or.inl ⟨n, rfl⟩)
  | getStats =>
    obtain ⟨-, he⟩ := Option.ite_none_left_eq_some.mp hr
    cases he
    exact Or.inr (Or.inr rfl)

/-- **Every step keeps the invariant, and no copy decreases.** -/
theorem Kept.step [Fintype E] (h : s.Kept s.threads) {a : Action E}
    {r : PublishCounters E × Option ((DispatchCounter → ℕ) × (E → ℕ))} (hr : s.step a = some r) :
    r.1.Kept r.1.threads ∧ ∀ c, c ≠ .activeSubscribers → s.stats c ≤ r.1.stats c := by
  obtain ⟨i, p, s', q, hi, hp, he, hthreads⟩ | ⟨n, he⟩ | he := step_cases hr
  · obtain ⟨rest, hperm, hset⟩ := Threads.exists_others hi
    have hkept := h.of_perm hperm
    rw [he]
    refine ⟨?_, fun c hc => hp.stats_le (hkept.copied c hc).2⟩
    have hnext : s'.Kept (s.threads.set i q) := (hkept.proceeds hp).of_perm (hset q).symm
    show (s'.moveTo i q).Kept (s'.threads.set i q)
    rw [hthreads]
    exact ⟨hnext.mutex, hnext.counted, hnext.copied, hnext.fresh, hnext.summed⟩
  · have htotals : ∀ c, c ≠ .activeSubscribers → (s.setSubscribers n).totals c = s.totals c :=
      fun c hc => Function.update_of_ne hc ..
    have hstats : ∀ c, c ≠ .activeSubscribers → (s.setSubscribers n).stats c = s.stats c :=
      fun c hc => Function.update_of_ne hc ..
    rw [he]
    refine ⟨⟨h.mutex, fun c hc => ?_, fun c hc => ?_, fun c hc => ?_, h.summed⟩,
      fun c hc => (hstats c hc).symm.le⟩
    · rw [htotals c hc]
      exact h.counted c hc
    · rw [htotals c hc, hstats c hc]
      exact h.copied c hc
    · rw [htotals c hc, hstats c hc]
      exact h.fresh c hc
  · rw [he]
    exact ⟨h, fun _ _ => le_refl _⟩

/-! ## Runs -/

omit [DecidableEq E] in
/-- In a new dispatcher all is zero. -/
theorem kept_started [Fintype E] (n : ℕ) : (started E n).Kept (started E n).threads := by
  have hnone : ∀ f : PublishPoint E → Bool, f .idle = false →
      (started E n).threads.countP f = 0 := by
    intro f hf
    refine List.countP_eq_zero.mpr fun p hp => ?_
    rw [List.eq_of_mem_replicate hp, hf]
    exact Bool.false_ne_true
  refine ⟨hnone _ rfl, fun c _ => ?_, fun c _ => ⟨le_refl _, fun v hv => ?_⟩,
    fun c _ => Or.inl rfl, ?_⟩
  · rw [hnone _ rfl]
    rfl
  · cases List.eq_of_mem_replicate hv
  · rw [hnone _ rfl]
    exact Finset.sum_const_zero

/-- What a run keeps and how it leaves the copies. -/
theorem Kept.run [Fintype E] (h : s.Kept s.threads) {as : List (Action E)}
    {os : List (Option ((DispatchCounter → ℕ) × (E → ℕ)))}
    (hr : (machine E).run s as = some (s', os)) :
    s'.Kept s'.threads ∧ ∀ c, c ≠ .activeSubscribers → s.stats c ≤ s'.stats c := by
  refine Machine.run_invariant (I := fun t _ =>
    t.Kept t.threads ∧ ∀ c, c ≠ .activeSubscribers → s.stats c ≤ t.stats c)
    ⟨h, fun _ _ => le_refl _⟩ ?_ hr
  rintro t - a r ⟨ht, hle⟩ hstep
  obtain ⟨hnext, hmono⟩ := ht.step hstep
  exact ⟨hnext, fun c hc => (hle c hc).trans (hmono c hc)⟩

omit [DecidableEq E] in
/-- When nobody publishes, the copies are up to date, and everything accepted is counted. -/
theorem Kept.exact_of_idle [Fintype E] (h : s.Kept threads) (hidle : ∀ p ∈ threads, p = .idle) :
    (∀ c, c ≠ .activeSubscribers → s.stats c = s.accepted c)
      ∧ ∑ e, s.eventCounts e = s.accepted .totalEvents := by
  have hnone : ∀ f : PublishPoint E → Bool, f .idle = false → threads.countP f = 0 := by
    intro f hf
    refine List.countP_eq_zero.mpr fun p hp => ?_
    rw [hidle p hp, hf]
    exact Bool.false_ne_true
  refine ⟨fun c hc => ?_, ?_⟩
  · have hcounted := h.counted c hc
    rw [hnone _ rfl, Nat.add_zero] at hcounted
    obtain hfresh | ⟨p, hp, hpc⟩ := h.fresh c hc
    · rw [hfresh, hcounted]
    · rw [hidle p hp] at hpc
      obtain hpc | hpc := hpc <;> cases hpc
  · have hsummed := h.summed
    rwa [hnone _ rfl, Nat.add_zero] at hsummed

end Step

/-- **The statistics are consistent under concurrency**: from a new dispatcher, for any number of
threads and in any interleaving, what `GetStats` returns never decreases and never exceeds the
publications that have been accepted, and is exact whenever no call is in progress. -/
theorem stats_consistent [Fintype E] {n : ℕ} {as bs : List (Action E)}
    {os os' : List (Option ((DispatchCounter → ℕ) × (E → ℕ)))} {s t : PublishCounters E}
    (hs : (machine E).run (started E n) as = some (s, os))
    (ht : (machine E).run s bs = some (t, os')) :
    (∀ c, c ≠ .activeSubscribers → s.getStats.1 c ≤ t.getStats.1 c
        ∧ t.getStats.1 c ≤ t.accepted c)
      ∧ ((∀ p ∈ t.threads, p = .idle) →
        (∀ c, c ≠ .activeSubscribers → t.getStats.1 c = t.accepted c)
          ∧ ∑ e, t.getStats.2 e = t.accepted .totalEvents) := by
  obtain ⟨hkept, -⟩ := (kept_started n).run hs
  obtain ⟨hkept', hle⟩ := hkept.run ht
  refine ⟨fun c hc => ⟨hle c hc, (hkept'.copied c hc).1.trans ?_⟩, hkept'.exact_of_idle⟩
  rw [← hkept'.counted c hc]
  exact Nat.le_add_right _ _

/-- Two threads publish an event and data, and the one that counts first copies last. -/
def overlapping : List (Action Bool) :=
  [.publishEvent 0 true, .advance 0 true, .advance 0 true, .publishData 1, .advance 1 true,
    .advance 1 true, .advance 1 true, .advance 1 true]

/-- What is left of the two calls. -/
def finishing : List (Action Bool) :=
  List.replicate 8 (.advance 1 true) ++ List.replicate 12 (.advance 0 true)

theorem stats_consistent_overlapping :
    ∃ s t os os', (machine Bool).run (started Bool 2) overlapping = some (s, os)
      ∧ (machine Bool).run s finishing = some (t, os')
      ∧ ((∀ c, c ≠ .activeSubscribers → s.getStats.1 c ≤ t.getStats.1 c
          ∧ t.getStats.1 c ≤ t.accepted c)
        ∧ ((∀ p ∈ t.threads, p = .idle) →
          (∀ c, c ≠ .activeSubscribers → t.getStats.1 c = t.accepted c)
            ∧ ∑ e, t.getStats.2 e = t.accepted .totalEvents)) := by
  obtain ⟨⟨t, os⟩, hrun⟩ := Option.isSome_iff_exists.mp
    (show ((machine Bool).run (started Bool 2) (overlapping ++ finishing)).isSome = true by decide)
  obtain ⟨s, os', os'', hs, ht, -⟩ := Machine.run_append_eq_some.mp hrun
  exact ⟨s, t, os', os'', hs, ht, stats_consistent hs ht⟩

example : ((machine Bool).run (started Bool 2) (overlapping ++ finishing)).map
    (fun r => (r.1.threads, r.1.getStats.1 .totalEvents, r.1.getStats.1 .totalData))
      = some ([.idle, .idle], 1, 1) := by
  decide

end PublishCounters
