import HttpServer.PromiseOperation
import HttpServer.Threads

/-!
# Waiting for an asynchronous operation

The other half of `PromiseOperation<T>` of `core/Async/async_operation_impl.hpp`: the thread that
the constructor starts, the calls of `WaitFor`, and the destructor. They all wait for the end of
`PENDING` on `cv_`, with `mutex_` held whenever the predicate is evaluated, so that nothing falls
between a predicate that was false and the blocking. A wait is a thread that goes from place to
place; the calls of the operation and the critical section of the destructor are one step each.

A settlement notifies once, and so wakes one of the threads that are blocked. The thread of the
constructor is one of them as a rule, although it has nothing to do, and may be the one that is
woken: a call of `WaitFor` that the settlement has passed over sleeps until its time is over
(`one_waiter_is_woken`). The destructor is safe from this. It notifies whatever the state is, and
by then there is no other thread left than the one it joins (`destructor_returns`).
-/

/-- Where a thread is that waits for the end of `PENDING`. -/
inductive Waiter
  /-- About to lock the mutex and to evaluate the predicate. -/
  | lock
  /-- Blocked, without the mutex. -/
  | blocked
  /-- Its time is over: about to lock the mutex and to evaluate the predicate once more. -/
  | timedOut
  /-- Out of the wait, which returned this. -/
  | returned (settled : Bool)
  deriving DecidableEq

namespace Waiter

def isBlocked : Waiter → Bool
  | blocked => true
  | _ => false

def hasReturned : Waiter → Bool
  | returned _ => true
  | _ => false

theorem eq_blocked_of_isBlocked {w : Waiter} (h : w.isBlocked = true) : w = blocked := by
  cases w with
  | blocked => rfl
  | _ => cases h

/-- `notify_one`, which wakes this one of the threads, if any is blocked. -/
def wakeOne (waiters : List Waiter) : Option ℕ → Option (List Waiter)
  | none => if waiters.any isBlocked then none else some waiters
  | some i => if waiters[i]? = some blocked then some (waiters.set i lock) else none

theorem wakeOne_cases {waiters waiters' : List Waiter} {woken : Option ℕ}
    (h : wakeOne waiters woken = some waiters') :
    (waiters' = waiters ∧ waiters.countP isBlocked = 0)
      ∨ ∃ i, waiters[i]? = some blocked ∧ waiters' = waiters.set i lock := by
  cases woken with
  | none =>
    obtain ⟨hnone, hs⟩ := Option.ite_none_left_eq_some.mp h
    cases hs
    refine Or.inl ⟨rfl, List.countP_eq_zero.mpr fun w hw hb => hnone ?_⟩
    exact List.any_eq_true.mpr ⟨w, hw, hb⟩
  | some i =>
    obtain ⟨hi, hs⟩ := Option.ite_none_right_eq_some.mp h
    cases hs
    exact Or.inr ⟨i, hi, rfl⟩

end Waiter

/-- How far the destructor is. -/
inductive OperationLifetime
  | alive
  /-- Behind its critical section, at `join`. -/
  | joining
  | gone
  deriving DecidableEq

/-- **An operation and who waits for it**: the thread that the constructor has started, and each
call of `WaitFor`. -/
structure WaitedOperation (V E K : Type*) where
  operation : PromiseOperation V E K := {}
  /-- The thread of the constructor comes first. -/
  waiters : List Waiter := [.lock]
  lifetime : OperationLifetime := .alive

/-- What happens next. -/
inductive WaitAction (V E K : Type*)
  /-- A call other than `WaitFor`; its `notify_one`, if there is one, wakes this thread. -/
  | call (a : PromiseOperation.Action V E K) (woken : Option ℕ)
  /-- A thread calls `WaitFor`. -/
  | waitFor
  /-- A thread goes on. -/
  | waiter (i : ℕ)
  /-- The time of a call of `WaitFor` is over. -/
  | timeout (i : ℕ)
  | spuriousWakeup (i : ℕ)
  /-- The critical section of the destructor. -/
  | destroy (woken : Option ℕ)
  /-- `join` returns. -/
  | join

/-- Something other than the call of a thread gets a blocked thread going. -/
def WaitAction.rouses {V E K : Type*} : WaitAction V E K → Bool
  | .timeout _ | .spuriousWakeup _ | .destroy _ => true
  | _ => false

namespace WaitedOperation

open PromiseOperation (Action Seen)

variable {V E K : Type*} (s : WaitedOperation V E K)

/-! ## The source -/

/-- Whether a call gets to its `notify_one`. -/
def notifies (a : Action V E K) (seen : Seen V E K) : Bool :=
  match a with
  | .setResult _ | .setException _ => seen.promise = some none
  | .cancel =>
    match seen.reply with
    | .bool b => b
    | _ => false
  | _ => false

/-- What the destructor does to an operation that is not settled. -/
def abandon (operation : PromiseOperation V E K) : PromiseOperation V E K :=
  if operation.state = .pending then
    { operation with state := .cancelled, cancelled := true, resultSet := true }
  else operation

/-- A call. -/
def call (what : FutureErrc → Bytes) (a : Action V E K) (woken : Option ℕ) :
    Option (WaitedOperation V E K) :=
  (PromiseOperation.step what s.operation a).bind fun r =>
    if notifies a r.2 then
      (Waiter.wakeOne s.waiters woken).map fun waiters => { s with operation := r.1, waiters }
    else if woken = none then some { s with operation := r.1 }
    else none

/-- A thread goes on: the predicate is evaluated, and the thread returns or blocks. -/
def waiterStep (i : ℕ) : Option (WaitedOperation V E K) :=
  match s.waiters[i]? with
  | some .lock =>
    let w := if s.operation.waitFor then .returned true else .blocked
    some { s with waiters := s.waiters.set i w }
  | some .timedOut => some { s with waiters := s.waiters.set i (.returned s.operation.waitFor) }
  | _ => none

/-- A blocked thread is not blocked any more. -/
def rouse (i : ℕ) (w : Waiter) : Option (WaitedOperation V E K) :=
  if s.waiters[i]? = some .blocked then some { s with waiters := s.waiters.set i w } else none

/-- One step. A call needs an object that is not being destroyed, and the destructor may only
run when the calls of `WaitFor` are over. -/
def step (what : FutureErrc → Bytes) : WaitAction V E K → Option (WaitedOperation V E K)
  | .call .waitFor _ => none
  | .call a woken => if s.lifetime = .alive then s.call what a woken else none
  | .waitFor =>
    if s.lifetime = .alive then some { s with waiters := s.waiters ++ [.lock] } else none
  | .waiter i => if s.lifetime = .gone then none else s.waiterStep i
  | .timeout i => if i = 0 then none else s.rouse i .timedOut
  | .spuriousWakeup i => s.rouse i .lock
  | .destroy woken =>
    if s.lifetime = .alive ∧ s.waiters.tail.all Waiter.hasReturned then
      (Waiter.wakeOne s.waiters woken).map fun waiters =>
        ⟨abandon s.operation, waiters, .joining⟩
    else none
  | .join =>
    if s.lifetime = .joining ∧ (s.waiters.head?.any Waiter.hasReturned) then
      some { s with lifetime := .gone }
    else none

/-- The operation with all its threads as a machine; its steps have no results. -/
def machine (V E K : Type*) (what : FutureErrc → Bytes) :
    Machine (WaitedOperation V E K) (WaitAction V E K) Unit where
  step s a := (s.step what a).map fun s => (s, ())

/-! ## What a step does -/

/-- **A thread goes on**, where the operation is settled or not. -/
inductive Proceeds : Bool → Waiter → Waiter → Prop
  | leave : Proceeds true .lock (.returned true)
  | block : Proceeds false .lock .blocked
  | giveUp (settled : Bool) : Proceeds settled .timedOut (.returned settled)

variable {s}

/-- **What a step does.** -/
inductive Effect (what : FutureErrc → Bytes) (s : WaitedOperation V E K) :
    WaitAction V E K → WaitedOperation V E K → Prop
  | call {a : Action V E K} {r : PromiseOperation V E K × Seen V E K}
      (halive : s.lifetime = .alive) (hstep : PromiseOperation.step what s.operation a = some r)
      (hquiet : notifies a r.2 = false) : Effect what s (.call a none) { s with operation := r.1 }
  | notify {a : Action V E K} {r : PromiseOperation V E K × Seen V E K} {woken : Option ℕ}
      {waiters : List Waiter} (halive : s.lifetime = .alive)
      (hstep : PromiseOperation.step what s.operation a = some r)
      (hnotifies : notifies a r.2 = true) (hwake : Waiter.wakeOne s.waiters woken = some waiters) :
      Effect what s (.call a woken) { s with operation := r.1, waiters }
  | waitFor (halive : s.lifetime = .alive) :
      Effect what s .waitFor { s with waiters := s.waiters ++ [.lock] }
  | proceed {i : ℕ} {w w' : Waiter} (hw : s.waiters[i]? = some w)
      (hp : Proceeds s.operation.waitFor w w') :
      Effect what s (.waiter i) { s with waiters := s.waiters.set i w' }
  | timeout {i : ℕ} (hi : i ≠ 0) (hw : s.waiters[i]? = some .blocked) :
      Effect what s (.timeout i) { s with waiters := s.waiters.set i .timedOut }
  | spuriousWakeup {i : ℕ} (hw : s.waiters[i]? = some .blocked) :
      Effect what s (.spuriousWakeup i) { s with waiters := s.waiters.set i .lock }
  | destroy {woken : Option ℕ} {waiters : List Waiter} (halive : s.lifetime = .alive)
      (hover : ∀ w ∈ s.waiters.tail, w.hasReturned = true)
      (hwake : Waiter.wakeOne s.waiters woken = some waiters) :
      Effect what s (.destroy woken) ⟨abandon s.operation, waiters, .joining⟩
  | join (hjoining : s.lifetime = .joining) : Effect what s .join { s with lifetime := .gone }

theorem effect_of_step {what : FutureErrc → Bytes} {a : WaitAction V E K}
    {s' : WaitedOperation V E K} (h : s.step what a = some s') : Effect what s a s' := by
  cases a with
  | call a woken =>
    have hlive : s.lifetime = .alive ∧ s.call what a woken = some s' := by
      cases a with
      | waitFor => cases h
      | _ => exact Option.ite_none_right_eq_some.mp h
    obtain ⟨halive, hcall⟩ := hlive
    obtain ⟨r, hr, hcall⟩ := Option.bind_eq_some_iff.mp hcall
    cases hn : notifies a r.2 with
    | true =>
      rw [if_pos hn] at hcall
      obtain ⟨waiters, hwake, rfl⟩ := Option.map_eq_some_iff.mp hcall
      exact .notify halive hr hn hwake
    | false =>
      rw [if_neg (Bool.eq_false_iff.mp hn)] at hcall
      obtain ⟨rfl, hs⟩ := Option.ite_none_right_eq_some.mp hcall
      cases hs
      exact .call halive hr hn
  | waitFor =>
    obtain ⟨halive, hs⟩ := Option.ite_none_right_eq_some.mp h
    cases hs
    exact .waitFor halive
  | waiter i =>
    obtain ⟨-, hs⟩ := Option.ite_none_left_eq_some.mp h
    unfold waiterStep at hs
    split at hs
    · rename_i hw
      cases hs
      refine .proceed hw ?_
      cases s.operation.waitFor with
      | true => exact .leave
      | false => exact .block
    · rename_i hw
      cases hs
      exact .proceed hw (.giveUp _)
    · cases hs
  | timeout i =>
    obtain ⟨hi, hs⟩ := Option.ite_none_left_eq_some.mp h
    obtain ⟨hw, hs⟩ := Option.ite_none_right_eq_some.mp hs
    cases hs
    exact .timeout hi hw
  | spuriousWakeup i =>
    obtain ⟨hw, hs⟩ := Option.ite_none_right_eq_some.mp h
    cases hs
    exact .spuriousWakeup hw
  | destroy woken =>
    obtain ⟨⟨halive, hover⟩, hs⟩ := Option.ite_none_right_eq_some.mp h
    obtain ⟨waiters, hwake, rfl⟩ := Option.map_eq_some_iff.mp hs
    exact .destroy halive (List.all_eq_true.mp hover) hwake
  | join =>
    obtain ⟨⟨hjoining, -⟩, hs⟩ := Option.ite_none_right_eq_some.mp h
    cases hs
    exact .join hjoining

theorem machine_step {what : FutureErrc → Bytes} {a : WaitAction V E K}
    {r : WaitedOperation V E K × Unit} (h : (machine V E K what).step s a = some r) :
    s.step what a = some r.1 := by
  obtain ⟨s', hs, rfl⟩ := Option.map_eq_some_iff.mp h
  exact hs

/-! ## The invariant -/

/-- A call of a settled operation does not notify, and one that settles it does. -/
theorem notifies_eq {what : FutureErrc → Bytes} {first : Option (PromiseOperation.Settlement V E)}
    {operation : PromiseOperation V E K} (h : operation.SettledBy first) {a : Action V E K}
    {r : PromiseOperation V E K × Seen V E K}
    (hr : PromiseOperation.step what operation a = some r) :
    notifies a r.2 = (first.isNone && a.settlement.isSome) := by
  cases ha : a.settlement with
  | none =>
    rw [Option.isSome_none, Bool.and_false]
    cases a with
    | setResult | setException | cancel => cases ha
    | _ => rfl
  | some x =>
    cases first with
    | none =>
      obtain ⟨r', hr', -, hpromise, -, hreply⟩ := h.step_of_none what ha
      rw [hr] at hr'
      cases hr'
      cases a with
      | setResult | setException => exact decide_eq_true hpromise
      | cancel =>
        unfold notifies
        rw [hreply rfl]
        rfl
      | _ => cases ha
    | some y =>
      rw [h.step_of_some ha] at hr
      cases hr
      cases a with
      | setResult | setException | cancel => rfl
      | _ => cases ha

/-- Being settled is for good. -/
theorem waitFor_of_step {what : FutureErrc → Bytes}
    {first : Option (PromiseOperation.Settlement V E)} {operation : PromiseOperation V E K}
    (h : operation.SettledBy first) {a : Action V E K} {r : PromiseOperation V E K × Seen V E K}
    (hr : PromiseOperation.step what operation a = some r) (hsettled : operation.waitFor = true) :
    r.1.waitFor = true := by
  have hne : operation.state ≠ .pending := of_decide_eq_true hsettled
  refine decide_eq_true ?_
  rw [(h.step hr).1.state]
  cases first with
  | none => exact absurd h.state hne
  | some x => exact PromiseOperation.stateAfter_some_ne_pending x

theorem waitFor_abandon (operation : PromiseOperation V E K) :
    (abandon operation).waitFor = true := by
  unfold abandon PromiseOperation.waitFor
  split
  · rfl
  · rename_i hne
    exact decide_eq_true hne

/-- **What holds in every state.** The thread of the constructor waits without a limit; a wait
that has returned `true` is right; and once the destructor has notified, that thread is not
blocked and no other one is left. -/
structure Sound (s : WaitedOperation V E K) : Prop where
  settledBy : s.lifetime = .alive → ∃ first, s.operation.SettledBy first
  truthful : .returned true ∈ s.waiters → s.operation.waitFor = true
  thread : ∃ w rest, s.waiters = w :: rest ∧ w ≠ .timedOut ∧ w ≠ .returned false
  leaving : s.lifetime ≠ .alive → s.operation.waitFor = true ∧ s.waiters[0]? ≠ some .blocked
    ∧ ∀ w ∈ s.waiters.tail, w.hasReturned = true

theorem sound_new : Sound ({} : WaitedOperation V E K) where
  settledBy _ := ⟨none, PromiseOperation.settledBy_new⟩
  truthful h := by cases List.mem_singleton.mp h
  thread := ⟨.lock, [], rfl, Waiter.noConfusion, Waiter.noConfusion⟩
  leaving h := absurd rfl h

/-- One thread moves. -/
theorem Sound.set (h : s.Sound) {i : ℕ} {w w' : Waiter} (hw : s.waiters[i]? = some w)
    (hleft : w.hasReturned = false) (hthread : i = 0 → w' ≠ .timedOut ∧ w' ≠ .returned false)
    (htruthful : w' = .returned true → s.operation.waitFor = true)
    (hblocked : s.operation.waitFor = true → w' ≠ .blocked) :
    Sound { s with waiters := s.waiters.set i w' } := by
  obtain ⟨w₀, rest, hs, hw₀⟩ := h.thread
  refine ⟨h.settledBy, fun hmem => ?_, ?_, fun hlife => ?_⟩
  · obtain hmem | heq := List.mem_or_eq_of_mem_set hmem
    · exact h.truthful hmem
    · exact htruthful heq.symm
  · rw [hs]
    cases i with
    | zero => exact ⟨w', rest, rfl, hthread rfl⟩
    | succ i => exact ⟨w₀, rest.set i w', rfl, hw₀⟩
  · obtain ⟨hsettled, -, htail⟩ := h.leaving hlife
    cases i with
    | zero =>
      rw [hs] at htail ⊢
      refine ⟨hsettled, fun heq => hblocked hsettled ?_, htail⟩
      exact Option.some.inj heq
    | succ i =>
      -- the calls of `WaitFor` are over
      rw [hs, List.getElem?_cons_succ] at hw
      have hover := htail w (hs ▸ List.mem_of_getElem? hw)
      rw [hleft] at hover
      cases hover

/-- A notification wakes a thread, or there was none to be woken. -/
theorem Sound.wake (h : s.Sound) {woken : Option ℕ} {waiters : List Waiter}
    (hwake : Waiter.wakeOne s.waiters woken = some waiters) :
    Sound { s with waiters } := by
  obtain ⟨rfl, -⟩ | ⟨i, hi, rfl⟩ := Waiter.wakeOne_cases hwake
  · exact h
  · exact h.set hi rfl (fun _ => ⟨Waiter.noConfusion, Waiter.noConfusion⟩) Waiter.noConfusion
      fun _ => Waiter.noConfusion

/-- The operation changes under a call. -/
theorem Sound.call {what : FutureErrc → Bytes} (h : s.Sound) (halive : s.lifetime = .alive)
    {a : Action V E K} {r : PromiseOperation V E K × Seen V E K}
    (hr : PromiseOperation.step what s.operation a = some r) :
    Sound { s with operation := r.1 } := by
  obtain ⟨first, hfirst⟩ := h.settledBy halive
  refine ⟨fun _ => ⟨_, (hfirst.step hr).1⟩, fun hmem => ?_, h.thread, fun hne => absurd halive hne⟩
  exact waitFor_of_step hfirst hr (h.truthful hmem)

/-- **Every step keeps the invariant.** -/
theorem Sound.effect {what : FutureErrc → Bytes} {a : WaitAction V E K}
    {s' : WaitedOperation V E K} (h : s.Sound) (he : Effect what s a s') : s'.Sound := by
  cases he with
  | call halive hstep hquiet => exact h.call halive hstep
  | notify halive hstep hnotifies hwake => exact (h.call halive hstep).wake hwake
  | waitFor halive =>
    obtain ⟨w, rest, hs, hw⟩ := h.thread
    refine ⟨h.settledBy, fun hmem => ?_, ⟨w, rest ++ [.lock], ?_, hw⟩, fun hne => absurd halive hne⟩
    · obtain hmem | hmem := List.mem_append.mp hmem
      · exact h.truthful hmem
      · cases List.mem_singleton.mp hmem
    · show s.waiters ++ [.lock] = _
      rw [hs, List.cons_append]
  | @proceed i w w' hw hp =>
    have hthread : i = 0 → w ≠ .timedOut := by
      rintro rfl
      obtain ⟨w₀, rest, hs, hne, -⟩ := h.thread
      rw [hs] at hw
      cases hw
      exact hne
    generalize hsettled : s.operation.waitFor = settled at hp
    cases hp with
    | leave =>
      refine h.set hw rfl (fun _ => ⟨Waiter.noConfusion, fun heq => ?_⟩) (fun _ => hsettled)
        fun _ => Waiter.noConfusion
      cases heq
    | block =>
      refine h.set hw rfl (fun _ => ⟨Waiter.noConfusion, Waiter.noConfusion⟩) Waiter.noConfusion
        fun htrue => ?_
      rw [hsettled] at htrue
      cases htrue
    | giveUp =>
      refine h.set hw rfl (fun hi => absurd rfl (hthread hi)) (fun heq => ?_)
        fun _ => Waiter.noConfusion
      cases heq
      exact hsettled
  | timeout hi hw =>
    exact h.set hw rfl (fun h0 => absurd h0 hi) Waiter.noConfusion fun _ => Waiter.noConfusion
  | spuriousWakeup hw =>
    exact h.set hw rfl (fun _ => ⟨Waiter.noConfusion, Waiter.noConfusion⟩) Waiter.noConfusion
      fun _ => Waiter.noConfusion
  | @destroy woken waiters halive hover hwake =>
    obtain ⟨-, -, hthread, -⟩ := h.wake hwake
    refine ⟨fun hlife => ?_, fun _ => waitFor_abandon _, hthread, fun _ => ?_⟩
    · cases hlife
    · obtain ⟨w, rest, hs, hw⟩ := h.thread
      rw [hs] at hover hwake
      refine ⟨waitFor_abandon _, ?_⟩
      -- nobody but the thread of the constructor can be blocked
      obtain ⟨rfl, hnone⟩ | ⟨i, hi, rfl⟩ := Waiter.wakeOne_cases hwake
      · refine ⟨fun heq => ?_, hover⟩
        have hblocked := List.countP_eq_zero.mp hnone w List.mem_cons_self
        exact hblocked (by rw [Option.some.inj heq]; rfl)
      · cases i with
        | zero => exact ⟨fun heq => Waiter.noConfusion (Option.some.inj heq), hover⟩
        | succ i =>
          rw [List.getElem?_cons_succ] at hi
          have hleft := hover .blocked (List.mem_of_getElem? hi)
          cases hleft
  | join hjoining =>
    refine ⟨fun hlife => ?_, h.truthful, h.thread, fun _ => h.leaving ?_⟩
    · cases hlife
    · rw [hjoining]
      exact OperationLifetime.noConfusion

theorem sound_of_run {what : FutureErrc → Bytes} {actions : List (WaitAction V E K)}
    {os : List Unit} (hs : s.Sound) {t : WaitedOperation V E K}
    (hr : (machine V E K what).run s actions = some (t, os)) : t.Sound :=
  Machine.run_invariant (I := fun s _ => s.Sound) hs
    (fun _ _ _ _ h hstep => h.effect (effect_of_step (machine_step hstep))) hr

/-! ## The destructor -/

/-- **The destructor always returns.** In every run of the calls of an operation, of its thread and
of any number of calls of `WaitFor`, whoever the notifications wake: when the destructor has come
to `join`, nothing can happen any more but that the thread goes on and that `join` returns, and
`join` does return, at once or behind one step of the thread. -/
theorem destructor_returns {what : FutureErrc → Bytes} {actions : List (WaitAction V E K)}
    {s : WaitedOperation V E K} {os : List Unit}
    (hr : (machine V E K what).run {} actions = some (s, os)) (hjoining : s.lifetime = .joining) :
    (∀ a r, (machine V E K what).step s a = some r → a = .waiter 0 ∨ a = .join)
      ∧ ∃ steps t os', (steps = [.join] ∨ steps = [.waiter 0, .join])
        ∧ (machine V E K what).run s steps = some (t, os') ∧ t.lifetime = .gone := by
  have hsound := sound_of_run sound_new hr
  obtain ⟨w, rest, hs, htimed, hfalse⟩ := hsound.thread
  obtain ⟨hsettled, hblocked, htail⟩ := hsound.leaving (by rw [hjoining]; decide)
  rw [hs] at hblocked htail
  have hrest : ∀ i w', s.waiters[i + 1]? = some w' → w'.hasReturned = true := by
    intro i w' hw'
    rw [hs, List.getElem?_cons_succ] at hw'
    exact htail w' (List.mem_of_getElem? hw')
  constructor
  · intro a r hstep
    have heffect := effect_of_step (machine_step hstep)
    generalize r.1 = s' at heffect
    cases heffect with
    | call halive | notify halive | waitFor halive | destroy halive =>
      rw [hjoining] at halive
      cases halive
    | @proceed i w' w'' hw' hp =>
      cases i with
      | zero => exact Or.inl rfl
      | succ i =>
        have hover := hrest i w' hw'
        generalize s.operation.waitFor = settled at hp
        cases hp <;> cases hover
    | @timeout i hi hw' =>
      obtain ⟨j, rfl⟩ := Nat.exists_eq_succ_of_ne_zero hi
      cases hrest j _ hw'
    | @spuriousWakeup i hw' =>
      cases i with
      | zero =>
        rw [hs] at hw'
        exact absurd hw' hblocked
      | succ i => cases hrest i _ hw'
    | join => exact Or.inr rfl
  · have hjoin : ∀ t : WaitedOperation V E K, t.lifetime = .joining →
        t.waiters.head?.any Waiter.hasReturned = true →
        (machine V E K what).step t .join = some ({ t with lifetime := .gone }, ()) := by
      intro t ht hhead
      have hstep : t.step what .join = some { t with lifetime := .gone } :=
        if_pos (And.intro ht hhead)
      exact congrArg (Option.map fun s => (s, ())) hstep
    cases w with
    | lock =>
      -- the thread finds the operation settled and leaves
      have hthread : (machine V E K what).step s (.waiter 0)
          = some ({ s with waiters := .returned true :: rest }, ()) := by
        have hlife : s.lifetime ≠ .gone := by
          rw [hjoining]
          exact OperationLifetime.noConfusion
        show ((if s.lifetime = .gone then none else s.waiterStep 0).map fun s => (s, ())) = _
        rw [if_neg hlife, waiterStep, hs, hsettled]
        rfl
      let t : WaitedOperation V E K := { s with waiters := .returned true :: rest }
      refine ⟨[.waiter 0, .join], { t with lifetime := .gone }, [(), ()], Or.inr rfl, ?_, rfl⟩
      refine Machine.run_cons_eq_some.mpr ⟨(t, ()), [()], hthread, ?_, rfl⟩
      exact Machine.run_cons_eq_some.mpr ⟨_, [], hjoin t hjoining rfl, rfl, rfl⟩
    | blocked => exact absurd rfl hblocked
    | timedOut => exact absurd rfl htimed
    | returned b =>
      have hhead : s.waiters.head?.any Waiter.hasReturned = true := by
        rw [hs]
        rfl
      refine ⟨[.join], { s with lifetime := .gone }, [()], Or.inl rfl, ?_, rfl⟩
      exact Machine.run_cons_eq_some.mpr ⟨_, [], hjoin s hjoining hhead, rfl, rfl⟩

/-- An operation with the result 5. -/
def completedOperation : PromiseOperation ℕ ℕ ℕ :=
  { promise := { outcome := some (.ok 5) }, state := .completed, resultSet := true }

/-- A call of `WaitFor` is woken by the settlement, and the thread of the constructor by the
destructor. -/
theorem destructor_returns_passed_over :
    let s : WaitedOperation ℕ ℕ ℕ := ⟨completedOperation, [.lock, .returned true], .joining⟩
    (∀ a r, (machine ℕ ℕ ℕ fun _ => []).step s a = some r → a = .waiter 0 ∨ a = .join)
      ∧ ∃ steps t os', (steps = [.join] ∨ steps = [.waiter 0, .join])
        ∧ (machine ℕ ℕ ℕ fun _ => []).run s steps = some (t, os') ∧ t.lifetime = .gone := by
  have hr : (machine ℕ ℕ ℕ fun _ => []).run {} [.waiter 0, .waitFor, .waiter 1,
        .call (.setResult 5) (some 1), .waiter 1, .destroy (some 0)]
      = some (⟨completedOperation, [.lock, .returned true], .joining⟩,
        [(), (), (), (), (), ()]) := rfl
  exact destructor_returns hr rfl

/-! ## A settlement -/

/-- What a thread is not yet after a step in which another moves, or in which it becomes
something else, it was before. -/
theorem getElem?_of_set {waiters : List Waiter} {i j : ℕ} {w w' : Waiter} (hne : w' ≠ w)
    (h : (waiters.set i w')[j]? = some w) : waiters[j]? = some w := by
  rw [List.getElem?_set] at h
  split at h
  · split at h
    · exact absurd (Option.some.inj h) hne
    · cases h
  · exact h

/-- **A step of a settled operation** lets nobody block and lets no wait return `false`. It gets
a blocked thread going only if it is not a call. -/
structure StaysSettled (s : WaitedOperation V E K) (a : WaitAction V E K)
    (s' : WaitedOperation V E K) : Prop where
  settled : s'.operation.waitFor = true
  returned_false : ∀ i : ℕ, s'.waiters[i]? = some (.returned false) →
    s.waiters[i]? = some (.returned false)
  blocked : ∀ i : ℕ, s'.waiters[i]? = some .blocked → s.waiters[i]? = some .blocked
  countP_eq : a.rouses = false →
    s'.waiters.countP Waiter.isBlocked = s.waiters.countP Waiter.isBlocked

theorem Sound.staysSettled {what : FutureErrc → Bytes} {a : WaitAction V E K}
    {s' : WaitedOperation V E K} (h : s.Sound) (hsettled : s.operation.waitFor = true)
    (he : Effect what s a s') : StaysSettled s a s' := by
  cases he with
  | call halive hstep hquiet =>
    obtain ⟨first, hfirst⟩ := h.settledBy halive
    exact ⟨waitFor_of_step hfirst hstep hsettled, fun _ => id, fun _ => id, fun _ => rfl⟩
  | notify halive hstep hnotifies hwake =>
    obtain ⟨first, hfirst⟩ := h.settledBy halive
    rw [notifies_eq hfirst hstep] at hnotifies
    cases first with
    | none =>
      have hpending : s.operation.state ≠ .pending := of_decide_eq_true hsettled
      exact absurd hfirst.state hpending
    | some x => cases hnotifies
  | waitFor halive =>
    have hnew : ∀ {w : Waiter} {i : ℕ}, Waiter.lock ≠ w → (s.waiters ++ [.lock])[i]? = some w →
        s.waiters[i]? = some w := by
      intro w i hne hi
      rw [List.getElem?_append] at hi
      split at hi
      · exact hi
      · have hmem := List.mem_of_getElem? hi
        exact absurd (List.mem_singleton.mp hmem).symm hne
    refine ⟨hsettled, fun i hi => hnew Waiter.noConfusion hi,
      fun i hi => hnew Waiter.noConfusion hi, fun _ => ?_⟩
    show (s.waiters ++ [Waiter.lock]).countP Waiter.isBlocked = _
    rw [List.countP_append]
    rfl
  | @proceed i w w' hw hp =>
    have hcount := Threads.countP_set_add Waiter.isBlocked hw w'
    rw [hsettled] at hp
    cases hp with
    | leave | giveUp =>
      refine ⟨hsettled, fun j hj => getElem?_of_set (fun heq => ?_) hj,
        fun j hj => getElem?_of_set Waiter.noConfusion hj, fun _ => hcount⟩
      cases heq
  | timeout hi hw | spuriousWakeup hw =>
    exact ⟨hsettled, fun j hj => getElem?_of_set Waiter.noConfusion hj,
      fun j hj => getElem?_of_set Waiter.noConfusion hj, fun hrouses => by cases hrouses⟩
  | destroy halive hover hwake =>
    refine ⟨waitFor_abandon _, fun j hj => ?_, fun j hj => ?_, fun hrouses => by cases hrouses⟩
    all_goals
      obtain ⟨rfl, -⟩ | ⟨i, -, rfl⟩ := Waiter.wakeOne_cases hwake
      · exact hj
      · exact getElem?_of_set Waiter.noConfusion hj
  | join hjoining => exact ⟨hsettled, fun _ => id, fun _ => id, fun _ => rfl⟩

/-- **The call that settles an operation** wakes one of the threads that are blocked, if there is
one. -/
theorem Sound.settle {what : FutureErrc → Bytes} {a : Action V E K} {woken : Option ℕ}
    {s' : WaitedOperation V E K} (h : s.Sound) (hpending : s.operation.waitFor = false)
    (he : Effect what s (.call a woken) s') (hsettled : s'.operation.waitFor = true) :
    s'.waiters.countP Waiter.isBlocked = s.waiters.countP Waiter.isBlocked - 1
      ∧ ∀ {w : Waiter} {i : ℕ}, Waiter.lock ≠ w → s'.waiters[i]? = some w →
        s.waiters[i]? = some w := by
  cases he with
  | @call a r halive hstep hquiet =>
    obtain ⟨first, hfirst⟩ := h.settledBy halive
    have hnone : first = none := by
      cases first with
      | none => rfl
      | some x =>
        have hstate : s.operation.state ≠ .pending := by
          rw [hfirst.state]
          exact PromiseOperation.stateAfter_some_ne_pending x
        have htrue : s.operation.waitFor = true := decide_eq_true hstate
        rw [hpending] at htrue
        cases htrue
    subst hnone
    rw [notifies_eq hfirst hstep] at hquiet
    have hnext := (hfirst.step hstep).1.state
    cases hs : a.settlement with
    | none =>
      rw [hs] at hnext
      exact absurd hnext (of_decide_eq_true hsettled)
    | some x =>
      rw [hs] at hquiet
      cases hquiet
  | notify halive hstep hnotifies hwake =>
    obtain ⟨rfl, hnone⟩ | ⟨i, hi, rfl⟩ := Waiter.wakeOne_cases hwake
    · exact ⟨by rw [hnone], fun _ => id⟩
    · have hcount := Threads.countP_set_add Waiter.isBlocked hi .lock
      simp only [Waiter.isBlocked, Bool.toNat_true, Bool.toNat_false] at hcount
      exact ⟨by show (s.waiters.set i .lock).countP _ = _; omega, fun hne => getElem?_of_set hne⟩

/-- **A settlement wakes one thread, and no other is woken by it later.** In every run, let a call
settle the operation. From then on no call of `WaitFor` returns `false`, not even one whose time
is over; nobody blocks; and of the threads that were blocked all but one stay so until their time
is over, a spurious wake-up or the destructor. -/
theorem one_waiter_is_woken {what : FutureErrc → Bytes} {before after : List (WaitAction V E K)}
    {s t : WaitedOperation V E K} {os os' : List Unit}
    (hr : (machine V E K what).run {} before = some (s, os)) {a : Action V E K}
    {woken : Option ℕ} {r : WaitedOperation V E K × Unit}
    (hstep : (machine V E K what).step s (.call a woken) = some r)
    (hpending : s.operation.waitFor = false) (hsettled : r.1.operation.waitFor = true)
    (hr' : (machine V E K what).run r.1 after = some (t, os')) :
    (∀ i : ℕ, t.waiters[i]? = some (.returned false) → s.waiters[i]? = some (.returned false))
      ∧ (∀ i : ℕ, t.waiters[i]? = some .blocked → s.waiters[i]? = some .blocked)
      ∧ ((∀ b ∈ after, b.rouses = false) → t.waiters.countP Waiter.isBlocked
        = s.waiters.countP Waiter.isBlocked - 1) := by
  have hsound := sound_of_run sound_new hr
  have heffect := effect_of_step (machine_step hstep)
  obtain ⟨hcount, hold⟩ := hsound.settle hpending heffect hsettled
  have hrest : ∀ (u : WaitedOperation V E K) (os' : List Unit), u.Sound →
      u.operation.waitFor = true → (machine V E K what).run u after = some (t, os') →
      (∀ i : ℕ, t.waiters[i]? = some (.returned false) → u.waiters[i]? = some (.returned false))
        ∧ (∀ i : ℕ, t.waiters[i]? = some .blocked → u.waiters[i]? = some .blocked)
        ∧ ((∀ b ∈ after, b.rouses = false) →
          t.waiters.countP Waiter.isBlocked = u.waiters.countP Waiter.isBlocked) := by
    clear hr'
    induction after with
    | nil =>
      intro u os' _ _ hrun
      cases hrun
      exact ⟨fun _ => id, fun _ => id, fun _ => rfl⟩
    | cons b after ih =>
      intro u os' hu hsettled hrun
      obtain ⟨r, os'', hstep, hrest, rfl⟩ := Machine.run_cons_eq_some.mp hrun
      have heffect := effect_of_step (machine_step hstep)
      have hstays := hu.staysSettled hsettled heffect
      obtain ⟨hfalse, hblocked, hsame⟩ := ih r.1 os'' (hu.effect heffect) hstays.settled hrest
      refine ⟨fun i hi => hstays.returned_false i (hfalse i hi),
        fun i hi => hstays.blocked i (hblocked i hi), fun hno => ?_⟩
      rw [hsame fun c hc => hno c (List.mem_cons_of_mem b hc),
        hstays.countP_eq (hno b List.mem_cons_self)]
  obtain ⟨hfalse, hblocked, hsame⟩ := hrest r.1 os' (hsound.effect heffect) hsettled hr'
  exact ⟨fun i hi => hold Waiter.noConfusion (hfalse i hi),
    fun i hi => hold Waiter.noConfusion (hblocked i hi), fun hno => (hsame hno).trans hcount⟩

/-- The settlement wakes the thread of the constructor, and the call of `WaitFor` sleeps on. -/
theorem one_waiter_is_woken_thread :
    [Waiter.returned true, .blocked].countP Waiter.isBlocked
      = [Waiter.blocked, .blocked].countP Waiter.isBlocked - 1 := by
  let s : WaitedOperation ℕ ℕ ℕ := { waiters := [.blocked, .blocked] }
  let t : WaitedOperation ℕ ℕ ℕ := ⟨completedOperation, [.returned true, .blocked], .alive⟩
  have hr : (machine ℕ ℕ ℕ fun _ => []).run {} [.waiter 0, .waitFor, .waiter 1]
      = some (s, [(), (), ()]) := rfl
  have hstep : (machine ℕ ℕ ℕ fun _ => []).step s (.call (.setResult 5) (some 0))
      = some (⟨completedOperation, [.lock, .blocked], .alive⟩, ()) := rfl
  have hr' : (machine ℕ ℕ ℕ fun _ => []).run ⟨completedOperation, [.lock, .blocked], .alive⟩
      [.waiter 0] = some (t, [()]) := rfl
  exact (one_waiter_is_woken hr hstep rfl rfl hr').2.2 (by decide)

end WaitedOperation
