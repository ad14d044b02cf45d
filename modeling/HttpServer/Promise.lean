import Mathlib.Logic.Basic

/-!
# A promise and its future

The shared state of a `std::promise` and of the one `std::future` obtained from it: an outcome
that is written once and read once. A second write throws, a read before the first write waits,
and a read after the first one finds no shared state.
-/

/-- The codes of a `std::future_error`. -/
inductive FutureErrc
  /-- `promise_already_satisfied` -/
  | promiseAlreadySatisfied
  /-- `no_state` -/
  | noState
  deriving DecidableEq, Repr

/-- A promise with its future: the outcome, once there is one, and whether the future still
refers to it. `X` are the exceptions, `V` the values. -/
structure Promise (X V : Type*) where
  outcome : Option (Except X V) := none
  valid : Bool := true

namespace Promise

variable {X V : Type*}

/-- `set_value` and `set_exception` of the promise. -/
def set (p : Promise X V) (outcome : Except X V) : Except FutureErrc (Promise X V) :=
  match p.outcome with
  | none => .ok { p with outcome := some outcome }
  | some _ => .error .promiseAlreadySatisfied

/-- `get` of the future: `none` while it waits. -/
def get (p : Promise X V) : Option (Except FutureErrc (Except X V) × Promise X V) :=
  if p.valid then p.outcome.map fun outcome => (.ok outcome, { p with valid := false })
  else some (.error .noState, p)

theorem set_of_none {p : Promise X V} (h : p.outcome = none) (outcome : Except X V) :
    p.set outcome = .ok { p with outcome := some outcome } := by
  rw [set, h]

theorem get_of_some {p : Promise X V} {outcome : Except X V} (h : p.outcome = some outcome)
    (hv : p.valid = true) : p.get = some (.ok outcome, { p with valid := false }) := by
  rw [get, if_pos hv, h]
  rfl

/-- Reading leaves the outcome where it is. -/
theorem outcome_of_get {p : Promise X V} {r : Except FutureErrc (Except X V) × Promise X V}
    (h : p.get = some r) : r.2.outcome = p.outcome := by
  unfold get at h
  cases hv : p.valid with
  | false =>
    rw [hv] at h
    cases h
    rfl
  | true =>
    rw [hv, if_pos rfl] at h
    obtain ⟨o, ho, rfl⟩ := Option.map_eq_some_iff.mp h
    exact rfl

end Promise
