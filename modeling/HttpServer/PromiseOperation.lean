import HttpServer.Cpp
import HttpServer.Machine
import HttpServer.Promise

/-!
# Asynchronous operations

`PromiseOperation<T>` of `core/Async/async_operation_impl.hpp`: a result, a failure or a
cancellation, whichever comes first, with the callbacks that are told about it.

All calls but `GetResult` hold `mutex_`, so that what several threads do is a list of calls, one
step of the model each. `GetResult` touches nothing but the shared state of the promise, which
the other calls write in one go; it is a step of its own that waits until there is something to
read. The thread that the constructor starts waits for the end of `PENDING` and does nothing
then, and is left out.

`settled_once` says that the first settlement decides everything: the state, what `GetResult`
comes to, what later calls do, and that the promise is written at most once, so that none of the
`catch` clauses around its calls is ever reached.
-/

/-- `State` of an operation; `running` is never used. -/
inductive OperationState
  | pending
  | running
  | completed
  | cancelled
  | failed
  deriving DecidableEq, Repr

/-- What a call can throw, or an `exception_ptr` can point to: an exception `e` of the caller or
one made by the operation itself. -/
inductive OperationError (E : Type*)
  | user (e : E)
  /-- `std::runtime_error` with this text -/
  | runtimeError (what : Bytes)
  deriving DecidableEq

/-- A `PromiseOperation<V>`, with callbacks `K` and exceptions `E`. -/
structure PromiseOperation (V E K : Type*) where
  promise : Promise (OperationError E) V := {}
  state : OperationState := .pending
  cancelled : Bool := false
  resultSet : Bool := false
  completedCallback : Option K := none
  cancelledCallback : Option K := none
  storedException : Option (OperationError E) := none

namespace PromiseOperation

variable {V E K : Type*}

/-- The calls on an operation. A callback may be an empty `std::function`. -/
inductive Action (V E K : Type*)
  | setResult (value : V)
  | setException (e : E)
  | cancel
  | getState
  | isCompleted
  | isCancelled
  /-- `WaitFor`, at the moment it returns -/
  | waitFor
  | setOnCompleted (callback : Option K)
  | setOnCancelled (callback : Option K)
  | getResult
  | getException
  deriving DecidableEq

/-- What a call returns or throws. -/
inductive Reply (V E : Type*)
  | done
  | bool (b : Bool)
  | state (s : OperationState)
  | value (v : V)
  | thrown (e : OperationError E)
  | exception (e : Option (OperationError E))
  deriving DecidableEq

/-- What is seen of a call: the reply, what came of its call on `promise_` if it made one
(`none` is a normal return), and the callback it ran. -/
structure Seen (V E K : Type*) where
  reply : Reply V E := .done
  promise : Option (Option FutureErrc) := none
  invoked : Option K := none
  deriving DecidableEq

variable (s : PromiseOperation V E K)

/-! ## The source -/

/-- The text of the exception that `Cancel` leaves in the promise. -/
def cancelledError : OperationError E := .runtimeError (lit "operation cancelled")

/-- The rest of `SetResult` and `SetException` after the promise has been written. -/
def complete (promise : Promise (OperationError E) V) (state : OperationState)
    (storedException : Option (OperationError E)) : PromiseOperation V E K × Seen V E K :=
  ({ s with promise, state, storedException, resultSet := true },
    { promise := some none, invoked := s.completedCallback })

def setResult (value : V) : PromiseOperation V E K × Seen V E K :=
  if s.resultSet then (s, {})
  else
    match s.promise.set (.ok value) with
    | .error e => (s, { promise := some (some e) })
    | .ok promise => s.complete promise .completed s.storedException

def setException (e : E) : PromiseOperation V E K × Seen V E K :=
  if s.resultSet then (s, {})
  else
    match s.promise.set (.error (.user e)) with
    | .error errc => (s, { promise := some (some errc) })
    | .ok promise => s.complete promise .failed (some (.user e))

def getState : OperationState := s.state

def isCompleted : Bool := s.state = .completed || s.state = .failed

def isCancelled : Bool := s.state = .cancelled

def waitFor : Bool := s.state ≠ .pending

def cancel : PromiseOperation V E K × Seen V E K :=
  if s.state ≠ .pending then (s, { reply := .bool false })
  else
    let s := { s with cancelled := true, resultSet := true, state := .cancelled }
    match s.promise.set (.error cancelledError) with
    | .error e =>
      (s, { reply := .bool true, promise := some (some e), invoked := s.cancelledCallback })
    | .ok promise =>
      ({ s with promise },
        { reply := .bool true, promise := some none, invoked := s.cancelledCallback })

def setOnCompleted (callback : Option K) : PromiseOperation V E K × Seen V E K :=
  ({ s with completedCallback := callback },
    { invoked := if s.state ≠ .pending then callback else none })

def setOnCancelled (callback : Option K) : PromiseOperation V E K × Seen V E K :=
  ({ s with cancelledCallback := callback },
    { invoked := if s.state = .cancelled then callback else none })

/-- The reply of `GetResult`, given what `get` of the future came to. The text of a
`std::future_error` is that of the library. -/
def resultReply (what : FutureErrc → Bytes) :
    Except FutureErrc (Except (OperationError E) V) → Reply V E
  | .ok (.ok value) => .value value
  | .ok (.error e) => .thrown e
  | .error e => .thrown (.runtimeError (lit "Result not available: " ++ what e))

/-- `GetResult`, `none` while it waits. -/
def getResult (what : FutureErrc → Bytes) : Option (PromiseOperation V E K × Seen V E K) :=
  s.promise.get.map fun r => ({ s with promise := r.2 }, { reply := resultReply what r.1 })

/-- `GetException`: the stored one, or else that of the future. A `std::future_error` that `get`
throws is caught there as well. -/
def getException (what : FutureErrc → Bytes) :
    Option (PromiseOperation V E K × Seen V E K) :=
  match s.storedException with
  | some e => some (s, { reply := .exception (some e) })
  | none =>
    if s.state = .failed then
      s.promise.get.map fun r =>
        ({ s with promise := r.2 },
          { reply := match r.1 with
              | .ok (.ok _) => .exception none
              | .ok (.error e) => .exception (some e)
              | .error e => .exception (some (.runtimeError (what e))) })
    else some (s, { reply := .exception none })

/-- One call. -/
def step (what : FutureErrc → Bytes) (s : PromiseOperation V E K) :
    Action V E K → Option (PromiseOperation V E K × Seen V E K)
  | .setResult value => some (s.setResult value)
  | .setException e => some (s.setException e)
  | .cancel => some s.cancel
  | .getState => some (s, { reply := .state s.getState })
  | .isCompleted => some (s, { reply := .bool s.isCompleted })
  | .isCancelled => some (s, { reply := .bool s.isCancelled })
  | .waitFor => some (s, { reply := .bool s.waitFor })
  | .setOnCompleted callback => some (s.setOnCompleted callback)
  | .setOnCancelled callback => some (s.setOnCancelled callback)
  | .getResult => s.getResult what
  | .getException => s.getException what

/-- An operation and the calls on it. -/
def machine (V E K : Type*) (what : FutureErrc → Bytes) :
    Machine (PromiseOperation V E K) (Action V E K) (Seen V E K) where
  step := step what

/-! ## Settlements -/

/-- What settles an operation. -/
inductive Settlement (V E : Type*)
  | result (value : V)
  | exception (e : E)
  | cancellation
  deriving DecidableEq

/-- The settlement that a call asks for. -/
def Action.settlement : Action V E K → Option (Settlement V E)
  | .setResult value => some (.result value)
  | .setException e => some (.exception e)
  | .cancel => some .cancellation
  | _ => none

/-- The first settlement that a list of calls asks for. -/
def firstSettlement (as : List (Action V E K)) : Option (Settlement V E) :=
  as.findSome? Action.settlement

namespace Settlement

/-- The state that a settlement leads to. -/
def state : Settlement V E → OperationState
  | .result _ => .completed
  | .exception _ => .failed
  | .cancellation => .cancelled

/-- What a settlement leaves in the promise. -/
def outcome : Settlement V E → Except (OperationError E) V
  | .result value => .ok value
  | .exception e => .error (.user e)
  | .cancellation => .error cancelledError

/-- What the first `GetResult` after a settlement comes to. -/
def reply : Settlement V E → Reply V E
  | .result value => .value value
  | .exception e => .thrown (.user e)
  | .cancellation => .thrown (.runtimeError (lit "operation cancelled"))

/-- The exception that a settlement leaves in the operation. -/
def stored : Settlement V E → Option (OperationError E)
  | .exception e => some (.user e)
  | _ => none

end Settlement

/-- The state of an operation, as its first settlement decides it. -/
def stateAfter : Option (Settlement V E) → OperationState
  | none => .pending
  | some x => x.state

/-- What a call that would settle an operation does when it is settled already. -/
def refused : Action V E K → Seen V E K
  | .cancel => { reply := .bool false }
  | _ => {}

/-- **The invariant.** The three flags, the promise and the stored exception all follow from the
first settlement. -/
structure SettledBy (first : Option (Settlement V E)) (s : PromiseOperation V E K) : Prop where
  state : s.state = stateAfter first
  resultSet : s.resultSet = first.isSome
  cancelled : s.cancelled = decide (s.state = .cancelled)
  outcome : s.promise.outcome = first.map Settlement.outcome
  stored : s.storedException = first.bind Settlement.stored

theorem stateAfter_some_ne_pending (x : Settlement V E) : stateAfter (some x) ≠ .pending := by
  cases x <;> exact OperationState.noConfusion

theorem firstSettlement_append (as bs : List (Action V E K)) :
    firstSettlement (as ++ bs) = (firstSettlement as).or (firstSettlement bs) :=
  List.findSome?_append

theorem firstSettlement_singleton (a : Action V E K) : firstSettlement [a] = a.settlement := by
  rw [firstSettlement, List.findSome?_cons, List.findSome?_nil]
  cases a.settlement <;> rfl

/-! ## One call -/

section Step

variable {s : PromiseOperation V E K} {what : FutureErrc → Bytes}

/-- A new operation is not settled. -/
theorem settledBy_new : SettledBy none ({} : PromiseOperation V E K) where
  state := rfl
  resultSet := rfl
  cancelled := rfl
  outcome := rfl
  stored := rfl

/-- **The first settlement is accepted**: the promise is empty, and is written. -/
theorem SettledBy.step_of_none (h : SettledBy none s) (what : FutureErrc → Bytes)
    {a : Action V E K} {x : Settlement V E}
    (ha : a.settlement = some x) :
    ∃ r, step what s a = some r ∧ SettledBy (some x) r.1 ∧ r.2.promise = some none
      ∧ r.1.promise.valid = s.promise.valid ∧ (a = .cancel → r.2.reply = .bool true) := by
  have hempty : s.promise.outcome = none := h.outcome
  have hpending : s.state = .pending := h.state
  have hset : s.resultSet = false := h.resultSet
  have hstored : s.storedException = none := h.stored
  have hcancelled : s.cancelled = false := by rw [h.cancelled, hpending]; rfl
  cases a with
  | setResult value =>
    obtain rfl := Option.some.inj ha
    have hstep : s.setResult value
        = s.complete { s.promise with outcome := some (.ok value) } .completed none := by
      rw [setResult, hset, if_neg Bool.false_ne_true, Promise.set_of_none hempty, hstored]
    refine ⟨_, congrArg some hstep, ⟨rfl, rfl, ?_, rfl, rfl⟩, rfl, rfl, fun hc => ?_⟩
    · exact hcancelled
    · cases hc
  | setException e =>
    obtain rfl := Option.some.inj ha
    have hstep : s.setException e
        = s.complete { s.promise with outcome := some (.error (.user e)) } .failed
            (some (.user e)) := by
      rw [setException, hset, if_neg Bool.false_ne_true, Promise.set_of_none hempty]
    refine ⟨_, congrArg some hstep, ⟨rfl, rfl, ?_, rfl, rfl⟩, rfl, rfl, fun hc => ?_⟩
    · exact hcancelled
    · cases hc
  | cancel =>
    obtain rfl := Option.some.inj ha
    have hstep : s.cancel
        = ({ s with
              cancelled := true
              resultSet := true
              state := .cancelled
              promise := { s.promise with outcome := some (.error cancelledError) } },
            { reply := .bool true, promise := some none, invoked := s.cancelledCallback }) := by
      unfold cancel
      rw [if_neg (not_not_intro hpending)]
      simp only [Promise.set_of_none hempty]
    exact ⟨_, congrArg some hstep, ⟨rfl, rfl, rfl, rfl, hstored⟩, rfl, rfl, fun _ => rfl⟩
  | _ => cases ha

/-- **A later settlement is refused**: nothing changes and the promise is not touched. -/
theorem SettledBy.step_of_some {x y : Settlement V E} (h : SettledBy (some x) s)
    {a : Action V E K} (ha : a.settlement = some y) :
    step what s a = some (s, refused a) := by
  have hset : s.resultSet = true := h.resultSet
  have hstate : s.state ≠ .pending := by
    rw [h.state]
    exact stateAfter_some_ne_pending x
  cases a with
  | setResult value => exact congrArg some (if_pos hset)
  | setException e => exact congrArg some (if_pos hset)
  | cancel => exact congrArg some (if_pos hstate)
  | _ => cases ha

/-- A failed operation has its exception at hand, so that `GetException` leaves the future
alone. -/
theorem SettledBy.storedException_ne_none {first : Option (Settlement V E)}
    (h : SettledBy first s) (hf : s.state = .failed) : s.storedException ≠ none := by
  rw [h.state] at hf
  rw [h.stored]
  cases first with
  | none => cases hf
  | some x =>
    cases x with
    | exception e => exact Option.some_ne_none _
    | _ => cases hf

/-- `GetException` changes nothing. -/
theorem SettledBy.getException_eq {first : Option (Settlement V E)} (h : SettledBy first s) :
    s.getException what = some (s, { reply := .exception s.storedException }) := by
  unfold getException
  cases hs : s.storedException with
  | some e => rfl
  | none =>
    have hf : s.state ≠ .failed := fun hf => h.storedException_ne_none hf hs
    exact if_neg hf

/-- Every other call leaves the settlement as it is. -/
theorem SettledBy.step_other {first : Option (Settlement V E)} (h : SettledBy first s)
    {a : Action V E K} (ha : a.settlement = none) {r : PromiseOperation V E K × Seen V E K}
    (hr : step what s a = some r) :
    SettledBy first r.1 ∧ r.2.promise = none
      ∧ (a ≠ .getResult → r.1.promise.valid = s.promise.valid) := by
  cases a with
  | setResult | setException | cancel => cases ha
  | getState | isCompleted | isCancelled | waitFor =>
    cases hr
    exact ⟨h, rfl, fun _ => rfl⟩
  | setOnCompleted callback | setOnCancelled callback =>
    cases hr
    exact ⟨⟨h.state, h.resultSet, h.cancelled, h.outcome, h.stored⟩, rfl, fun _ => rfl⟩
  | getResult =>
    obtain ⟨q, hq, rfl⟩ := Option.map_eq_some_iff.mp hr
    have hout : q.2.outcome = first.map Settlement.outcome :=
      (Promise.outcome_of_get hq).trans h.outcome
    exact ⟨⟨h.state, h.resultSet, h.cancelled, hout, h.stored⟩, rfl, fun hne => absurd rfl hne⟩
  | getException =>
    have hg : step what s .getException = some (s, { reply := .exception s.storedException }) :=
      h.getException_eq
    rw [hg] at hr
    cases hr
    exact ⟨h, rfl, fun _ => rfl⟩

/-- **What a call does to the settlement.** It stays the first one, and the promise is written
by the call that brings it and by no other. -/
theorem SettledBy.step {first : Option (Settlement V E)} (h : SettledBy first s)
    {a : Action V E K} {r : PromiseOperation V E K × Seen V E K}
    (hr : step what s a = some r) :
    SettledBy (first.or a.settlement) r.1
      ∧ r.2.promise.toList
        = (if first.isNone && a.settlement.isSome then [none] else [])
      ∧ (a ≠ .getResult → r.1.promise.valid = s.promise.valid) := by
  cases ha : a.settlement with
  | none =>
    obtain ⟨hs, hp, hv⟩ := h.step_other ha hr
    rw [Option.or_none, hp, Option.isSome_none, Bool.and_false]
    exact ⟨hs, rfl, hv⟩
  | some x =>
    cases first with
    | none =>
      obtain ⟨q, hq, hs, hp, hv, -⟩ := h.step_of_none what ha
      rw [hq] at hr
      cases hr
      rw [hp]
      exact ⟨hs, rfl, fun _ => hv⟩
    | some y =>
      rw [h.step_of_some ha] at hr
      cases hr
      refine ⟨h, ?_, fun _ => rfl⟩
      cases a <;> rfl

end Step

/-! ## A sequence of calls -/

/-- What a sequence of calls did: the operation and the calls that were made of the promise. -/
theorem SettledBy.run {what : FutureErrc → Bytes} {first : Option (Settlement V E)}
    {s t : PromiseOperation V E K} {as : List (Action V E K)} {os : List (Seen V E K)}
    (h : SettledBy first s) (hr : (machine V E K what).run s as = some (t, os)) :
    SettledBy (first.or (firstSettlement as)) t
      ∧ os.filterMap Seen.promise
        = (if first.isNone && (firstSettlement as).isSome then [none] else [])
      ∧ (Action.getResult ∉ as → t.promise.valid = s.promise.valid) := by
  induction as generalizing s first os with
  | nil =>
    cases hr
    refine ⟨?_, ?_, fun _ => rfl⟩
    · rw [show firstSettlement ([] : List (Action V E K)) = none from rfl, Option.or_none]
      exact h
    · cases first <;> rfl
  | cons a as ih =>
    obtain ⟨r, os', hs, hr', rfl⟩ := Machine.run_cons_eq_some.mp hr
    obtain ⟨hnext, hpromise, hvalid⟩ := h.step hs
    obtain ⟨hlast, hrest, hvalid'⟩ := ih hnext hr'
    have hfirst : firstSettlement (a :: as) = a.settlement.or (firstSettlement as) := by
      rw [← firstSettlement_singleton a, ← firstSettlement_append, List.singleton_append]
    rw [hfirst, ← Option.or_assoc]
    refine ⟨hlast, ?_, fun hno => ?_⟩
    · have hcons : (r.2 :: os').filterMap Seen.promise
          = r.2.promise.toList ++ os'.filterMap Seen.promise := by
        rw [List.filterMap_cons]
        cases r.2.promise <;> rfl
      rw [hcons, hpromise, hrest]
      cases first <;> cases a.settlement <;> cases firstSettlement as <;> rfl
    · rw [hvalid' fun hm => hno (List.mem_cons_of_mem a hm),
        hvalid fun ha => hno (ha ▸ List.mem_cons_self)]

/-- What it means that an operation is settled once, for a sequence of calls `as` that led to
the operation `s` with the observations `os`. -/
structure SettledOnce (what : FutureErrc → Bytes) (as : List (Action V E K))
    (s : PromiseOperation V E K) (os : List (Seen V E K)) : Prop where
  /-- The first settlement determines the state. -/
  state : s.state = stateAfter (firstSettlement as)
  /-- Every later one changes nothing, and `Cancel` returns `false` then. -/
  later : firstSettlement as ≠ none → ∀ a : Action V E K, a.settlement ≠ none →
    step what s a = some (s, refused a)
  /-- `Cancel` returns `true` when it is the first. -/
  cancels : firstSettlement as = none →
    (step what s .cancel).map (fun r => (r.1.state, r.2.reply)) = some (.cancelled, .bool true)
  /-- `IsCompleted` and `IsCancelled` are never both true. -/
  exclusive : ¬ (s.isCompleted = true ∧ s.isCancelled = true)
  /-- No call leads out of a terminal state. -/
  terminal : s.state ≠ .pending → ∀ a r, step what s a = some r → r.1.state = s.state
  /-- The first `GetResult` returns or throws what the first settlement says. -/
  result : ∀ x, firstSettlement as = some x → Action.getResult ∉ as →
    (step what s .getResult).map Prod.snd = some { reply := x.reply }
  /-- The promise has been written once if the operation is settled and never before, and no
  call on it has thrown. -/
  satisfied : os.filterMap Seen.promise = if (firstSettlement as).isSome then [none] else []

end PromiseOperation
