import HttpServer.PromiseOperation
import Mathlib.Data.List.ReduceOption

/-!
# Callbacks that are registered late

A `PromiseOperation` runs a callback at one of two places: where the operation is settled, or
where the callback is registered, if the operation has been settled by then. It should make no
difference which of the two it is (`callbacksIn`): with one callback of each kind, the one for
completion runs if the operation is completed or has failed, the other if it is cancelled.

For `SetOnCancelled` the two places agree. `SetOnCompleted` asks whether the state is not
`PENDING`, and a cancelled operation is not pending: registered behind a cancellation, the
callback for completion runs as well. `invoked_eq_iff` says that this is the only way for the
two places to differ.
-/

namespace PromiseOperation

variable {V E K : Type*}

/-- The callback that a call registers for completion, empty or not. -/
def Action.onCompleted : Action V E K → Option (Option K)
  | .setOnCompleted callback => some callback
  | _ => none

/-- The callback that a call registers for cancellation, empty or not. -/
def Action.onCancelled : Action V E K → Option (Option K)
  | .setOnCancelled callback => some callback
  | _ => none

/-- Which of two callbacks a settlement runs. -/
def Settlement.callback (completed cancelled : Option K) : Settlement V E → Option K
  | .cancellation => cancelled
  | _ => completed

/-- **The callbacks that are to run**, with the state that an operation ends in: `c` once if it
is completed or has failed, and `k` once if it is cancelled. -/
def callbacksIn (c k : K) : OperationState → List K
  | .completed => [c]
  | .failed => [c]
  | .cancelled => [k]
  | .pending => []
  | .running => []

/-- One callback is registered for completion and one for cancellation. -/
structure RegisteredOnce (c k : K) (as : List (Action V E K)) : Prop where
  onCompleted : as.filterMap Action.onCompleted = [some c]
  onCancelled : as.filterMap Action.onCancelled = [some k]

/-- No callback for completion is registered behind a cancellation that settles the
operation. -/
def InTime (as : List (Action V E K)) : Prop :=
  ∀ before after callback, as = before ++ .setOnCompleted callback :: after →
    firstSettlement before ≠ some .cancellation

/-! ## Before the settlement -/

section Step

variable {s t : PromiseOperation V E K} {what : FutureErrc → Bytes} {as : List (Action V E K)}
  {os : List (Seen V E K)}

/-- A registration has no effect but to be remembered while nothing is settled. -/
theorem SettledBy.invoked_of_none (h : SettledBy none s) {a : Action V E K}
    (ha : a.settlement = none) {r : PromiseOperation V E K × Seen V E K}
    (hr : PromiseOperation.step what s a = some r) :
    r.2.invoked = none
      ∧ r.1.completedCallback = a.onCompleted.getD s.completedCallback
      ∧ r.1.cancelledCallback = a.onCancelled.getD s.cancelledCallback := by
  have hpending : s.state = .pending := h.state
  cases a with
  | setResult | setException | cancel => cases ha
  | getState | isCompleted | isCancelled | waitFor =>
    cases hr
    exact ⟨rfl, rfl, rfl⟩
  | setOnCompleted callback =>
    cases hr
    exact ⟨if_neg (not_not.mpr hpending), rfl, rfl⟩
  | setOnCancelled callback =>
    cases hr
    exact ⟨if_neg (by rw [hpending]; decide), rfl, rfl⟩
  | getResult =>
    obtain ⟨q, -, rfl⟩ := Option.map_eq_some_iff.mp hr
    exact ⟨rfl, rfl, rfl⟩
  | getException =>
    have hg : PromiseOperation.step what s .getException
        = some (s, { reply := .exception s.storedException }) := h.getException_eq
    rw [hg] at hr
    cases hr
    exact ⟨rfl, rfl, rfl⟩

/-- So nothing runs until an operation is settled, and what has been registered last is there. -/
theorem SettledBy.invoked_before (h : SettledBy none s) (has : ∀ a ∈ as, a.settlement = none)
    (hr : (machine V E K what).run s as = some (t, os)) :
    SettledBy none t ∧ os.filterMap Seen.invoked = []
      ∧ t.completedCallback = (as.filterMap Action.onCompleted).getLastD s.completedCallback
      ∧ t.cancelledCallback = (as.filterMap Action.onCancelled).getLastD s.cancelledCallback := by
  induction as generalizing s os with
  | nil =>
    cases hr
    exact ⟨h, rfl, rfl, rfl⟩
  | cons a as ih =>
    obtain ⟨r, os', hs, hr', rfl⟩ := Machine.run_cons_eq_some.mp hr
    have ha := has a List.mem_cons_self
    obtain ⟨hnone, hc, hk⟩ := h.invoked_of_none ha hs
    have hnext : SettledBy none r.1 := (h.step_other ha hs).1
    obtain ⟨ht, hos, hc', hk'⟩ := ih hnext (fun b hb => has b (List.mem_cons_of_mem a hb)) hr'
    refine ⟨ht, ?_, ?_, ?_⟩
    · rw [List.filterMap_cons, hnone, hos]
    · rw [hc', hc, List.filterMap_cons]
      cases a.onCompleted with
      | none => rfl
      | some callback => rw [Option.getD_some, List.getLastD_cons]
    · rw [hk', hk, List.filterMap_cons]
      cases a.onCancelled with
      | none => rfl
      | some callback => rw [Option.getD_some, List.getLastD_cons]

/-- The settlement runs the callback of its kind. -/
theorem SettledBy.invoked_of_settlement (h : SettledBy none s) {a : Action V E K}
    {x : Settlement V E} (ha : a.settlement = some x) {r : PromiseOperation V E K × Seen V E K}
    (hr : PromiseOperation.step what s a = some r) :
    r.2.invoked = x.callback s.completedCallback s.cancelledCallback := by
  have hempty : s.promise.outcome = none := h.outcome
  have hset : s.resultSet = false := h.resultSet
  have hpending : s.state = .pending := h.state
  cases a with
  | setResult value =>
    obtain rfl := Option.some.inj ha
    have hr : s.setResult value = r := Option.some.inj hr
    rw [setResult, hset, if_neg Bool.false_ne_true, Promise.set_of_none hempty] at hr
    rw [← hr]
    rfl
  | setException e =>
    obtain rfl := Option.some.inj ha
    have hr : s.setException e = r := Option.some.inj hr
    rw [setException, hset, if_neg Bool.false_ne_true, Promise.set_of_none hempty] at hr
    rw [← hr]
    rfl
  | cancel =>
    obtain rfl := Option.some.inj ha
    have hr : s.cancel = r := Option.some.inj hr
    unfold cancel at hr
    rw [if_neg (not_not_intro hpending)] at hr
    simp only [Promise.set_of_none hempty] at hr
    rw [← hr]
    rfl
  | _ => cases ha

/-! ## After the settlement -/

/-- The callback that a call runs on an operation with a settlement. -/
def Settlement.late (x : Settlement V E) (a : Action V E K) : Option K :=
  match a with
  | .setOnCompleted callback => callback
  | .setOnCancelled callback => x.callback none callback
  | _ => none

/-- A callback that is registered behind the settlement runs at once, one for cancellation only
if that is how the operation ended. -/
theorem SettledBy.invoked_of_some {x : Settlement V E} (h : SettledBy (some x) s)
    {a : Action V E K} {r : PromiseOperation V E K × Seen V E K}
    (hr : PromiseOperation.step what s a = some r) : r.2.invoked = x.late a := by
  have hstate : s.state = x.state := h.state
  have hne : s.state ≠ .pending := by
    rw [h.state]
    exact stateAfter_some_ne_pending x
  cases ha : a.settlement with
  | some y =>
    rw [h.step_of_some ha] at hr
    cases hr
    cases a with
    | setResult | setException | cancel => rfl
    | _ => cases ha
  | none =>
    cases a with
    | setResult | setException | cancel => cases ha
    | getState | isCompleted | isCancelled | waitFor =>
      cases hr
      rfl
    | setOnCompleted callback =>
      cases hr
      exact if_pos hne
    | setOnCancelled callback =>
      cases hr
      show (if s.state = .cancelled then callback else none) = _
      rw [hstate]
      cases x <;> rfl
    | getResult =>
      obtain ⟨q, -, rfl⟩ := Option.map_eq_some_iff.mp hr
      rfl
    | getException =>
      have hg : PromiseOperation.step what s .getException
          = some (s, { reply := .exception s.storedException }) := h.getException_eq
      rw [hg] at hr
      cases hr
      rfl

/-- What runs behind the settlement is what is registered there. -/
theorem SettledBy.invoked_after {x : Settlement V E} (h : SettledBy (some x) s)
    (hr : (machine V E K what).run s as = some (t, os)) :
    os.filterMap Seen.invoked = as.filterMap x.late := by
  induction as generalizing s os with
  | nil =>
    cases hr
    rfl
  | cons a as ih =>
    obtain ⟨r, os', hs, hr', rfl⟩ := Machine.run_cons_eq_some.mp hr
    have hnext : SettledBy (some x) r.1 := (h.step hs).1
    rw [List.filterMap_cons, List.filterMap_cons, h.invoked_of_some hs, ih hnext hr']

end Step

/-! ## Both orders -/

/-- Where nothing is registered for completion, what runs behind a settlement is what is
registered for cancellation, if that is how the operation ended. -/
theorem filterMap_late_of_onCompleted {as : List (Action V E K)} (x : Settlement V E)
    (h : as.filterMap Action.onCompleted = []) :
    as.filterMap x.late = ((as.filterMap Action.onCancelled).filterMap (x.callback none)) := by
  rw [List.filterMap_filterMap]
  refine List.filterMap_congr fun a ha => ?_
  have hno := List.filterMap_eq_nil_iff.mp h a ha
  cases a with
  | setOnCompleted callback => cases hno
  | _ => rfl

/-- Behind a settlement that is no cancellation, what runs is what is registered for
completion. -/
theorem filterMap_late_of_ne {as : List (Action V E K)} {x : Settlement V E}
    (hx : x ≠ .cancellation) :
    as.filterMap x.late = (as.filterMap Action.onCompleted).reduceOption := by
  rw [List.reduceOption, List.filterMap_filterMap]
  refine List.filterMap_congr fun a _ => ?_
  cases x with
  | cancellation => exact absurd rfl hx
  | _ => cases a <;> rfl

/-- Behind a cancellation, whatever is registered runs. -/
theorem length_filterMap_late (as : List (Action V E K)) :
    (as.filterMap (Settlement.cancellation : Settlement V E).late).length
      = (as.filterMap Action.onCompleted).reduceOption.length
        + (as.filterMap Action.onCancelled).reduceOption.length := by
  simp only [List.reduceOption, List.filterMap_filterMap]
  induction as with
  | nil => rfl
  | cons a as ih =>
    rw [List.filterMap_cons, List.filterMap_cons, List.filterMap_cons]
    cases a with
    | setOnCompleted callback =>
      cases callback with
      | none => exact ih
      | some c => exact (congrArg Nat.succ ih).trans (Nat.succ_add _ _).symm
    | setOnCancelled callback =>
      cases callback with
      | none => exact ih
      | some k => exact congrArg Nat.succ ih
    | _ => exact ih

/-- **The settlement and what comes behind it run the two callbacks as if both had been there,
unless the one for completion is registered behind a cancellation.** -/
theorem invoked_settlement_iff {c k : K} {before after : List (Action V E K)}
    (x : Settlement V E)
    (hc : before.filterMap Action.onCompleted ++ after.filterMap Action.onCompleted = [some c])
    (hk : before.filterMap Action.onCancelled ++ after.filterMap Action.onCancelled = [some k]) :
    (x.callback ((before.filterMap Action.onCompleted).getLastD none)
          ((before.filterMap Action.onCancelled).getLastD none)).toList ++ after.filterMap x.late
        = callbacksIn c k x.state
      ↔ (x = .cancellation → after.filterMap Action.onCompleted = []) := by
  obtain ⟨hbefore, hafter⟩ | ⟨hbefore, hafter⟩ := List.append_eq_singleton_iff.mp hc
  · rw [hbefore, hafter]
    by_cases hx : x = .cancellation
    · -- `c` runs as well, so that there are two
      subst hx
      have hlen := length_filterMap_late after (V := V) (E := E)
      rw [hafter] at hlen
      refine iff_of_false (fun he => ?_) (fun h => List.cons_ne_nil _ _ (h rfl))
      have htwo := congrArg List.length he
      rw [List.length_append, hlen] at htwo
      obtain ⟨hb, ha⟩ | ⟨hb, ha⟩ := List.append_eq_singleton_iff.mp hk
      · rw [hb, ha] at htwo
        cases htwo
      · rw [hb, ha] at htwo
        cases htwo
    · rw [filterMap_late_of_ne hx, hafter]
      refine iff_of_true ?_ fun h => absurd h hx
      cases x with
      | cancellation => exact absurd rfl hx
      | _ => rfl
  · rw [hbefore, hafter, filterMap_late_of_onCompleted x hafter]
    refine iff_of_true ?_ fun _ => rfl
    obtain ⟨hb, ha⟩ | ⟨hb, ha⟩ := List.append_eq_singleton_iff.mp hk
    · rw [hb, ha]
      cases x <;> rfl
    · rw [hb, ha]
      cases x <;> rfl

/-- Where the first settlement of a list of calls is. -/
theorem exists_settlement {as : List (Action V E K)} {x : Settlement V E}
    (h : firstSettlement as = some x) :
    ∃ before a after, as = before ++ a :: after ∧ a.settlement = some x
      ∧ ∀ b ∈ before, b.settlement = none :=
  List.findSome?_eq_some_iff.mp h

/-- What runs in a sequence of calls: nothing up to the settlement, then the callback of its
kind, and then what is registered late. -/
theorem invoked_of_run {what : FutureErrc → Bytes} {s : PromiseOperation V E K}
    {before after : List (Action V E K)} {a : Action V E K} {os : List (Seen V E K)}
    (hbefore : ∀ b ∈ before, b.settlement = none) {x : Settlement V E}
    (ha : a.settlement = some x)
    (hr : (machine V E K what).run {} (before ++ a :: after) = some (s, os)) :
    os.filterMap Seen.invoked
      = (x.callback ((before.filterMap Action.onCompleted).getLastD none)
          ((before.filterMap Action.onCancelled).getLastD none)).toList
        ++ after.filterMap x.late := by
  obtain ⟨t, os₁, os₂, h₁, h₂, rfl⟩ := Machine.run_append_eq_some.mp hr
  obtain ⟨r, os₃, hstep, h₃, rfl⟩ := Machine.run_cons_eq_some.mp h₂
  obtain ⟨ht, hnone, hcompleted, hcancelled⟩ := settledBy_new.invoked_before hbefore h₁
  have hnow := ht.invoked_of_settlement ha hstep
  have hnext : SettledBy (some x) r.1 := by
    have h := (ht.step hstep).1
    rwa [ha, Option.none_or] at h
  rw [List.filterMap_append, hnone, List.nil_append, List.filterMap_cons, hnow,
    hnext.invoked_after h₃, hcompleted, hcancelled]
  show _ = (x.callback (List.getLastD _ none) (List.getLastD _ none)).toList ++ _
  cases x.callback ((before.filterMap Action.onCompleted).getLastD none)
    ((before.filterMap Action.onCancelled).getLastD none) <;> rfl

/-- The condition, seen from the settlement. -/
theorem inTime_iff {before after : List (Action V E K)} {a : Action V E K}
    (hbefore : ∀ b ∈ before, b.settlement = none) {x : Settlement V E}
    (ha : a.settlement = some x) :
    InTime (before ++ a :: after)
      ↔ (x = .cancellation → after.filterMap Action.onCompleted = []) := by
  have hfirst : ∀ mid, firstSettlement (before ++ a :: mid) = some x := fun mid =>
    List.findSome?_eq_some_iff.mpr ⟨before, a, mid, rfl, ha, hbefore⟩
  constructor
  · intro h hx
    refine List.filterMap_eq_nil_iff.mpr fun b hb => ?_
    obtain ⟨mid, rest, rfl⟩ := List.append_of_mem hb
    cases b with
    | setOnCompleted callback =>
      have hsplit : before ++ a :: (mid ++ .setOnCompleted callback :: rest)
          = (before ++ a :: mid) ++ .setOnCompleted callback :: rest := by simp
      exact absurd (hx ▸ hfirst mid) (h _ rest callback hsplit)
    | _ => rfl
  · intro h front rest callback he hcancelled
    obtain ⟨mid, hfront, hrest⟩ | ⟨mid, hfront, hrest⟩ := List.append_eq_append_iff.mp he
    · -- the registration comes behind the settlement
      cases mid with
      | nil =>
        obtain ⟨rfl, -⟩ := List.cons.inj hrest
        cases ha
      | cons b mid =>
        obtain ⟨rfl, hafter⟩ := List.cons.inj hrest
        rw [hfront, hfirst mid] at hcancelled
        have hmem : .setOnCompleted callback ∈ after := by
          rw [hafter]
          exact List.mem_append_right _ List.mem_cons_self
        have hnone := List.filterMap_eq_nil_iff.mp (h (Option.some.inj hcancelled)) _ hmem
        cases hnone
    · -- it comes before it
      have hnone : firstSettlement front = none := by
        refine List.findSome?_eq_none_iff.mpr fun b hb => hbefore b ?_
        rw [hfront]
        exact List.mem_append_left _ hb
      rw [hnone] at hcancelled
      cases hcancelled

/-- **The callbacks run as if they had been registered before the settlement, unless the one for
completion is registered behind a cancellation.** -/
theorem invoked_eq_iff {what : FutureErrc → Bytes} {as : List (Action V E K)} {c k : K}
    (hreg : RegisteredOnce c k as) {s : PromiseOperation V E K} {os : List (Seen V E K)}
    (hr : (machine V E K what).run {} as = some (s, os)) :
    os.filterMap Seen.invoked = callbacksIn c k s.state ↔ InTime as := by
  have hstate : s.state = stateAfter (firstSettlement as) := by
    have h := (settledBy_new.run hr).1.state
    rwa [Option.none_or] at h
  rw [hstate]
  cases hfirst : firstSettlement as with
  | none =>
    have hall := List.findSome?_eq_none_iff.mp hfirst
    rw [(settledBy_new.invoked_before hall hr).2.1]
    refine iff_of_true rfl fun before after callback he => ?_
    have hnone : firstSettlement before = none := List.findSome?_eq_none_iff.mpr fun b hb =>
      hall b (he ▸ List.mem_append_left _ hb)
    rw [hnone]
    exact Option.some_ne_none _ ∘ Eq.symm
  | some x =>
    obtain ⟨before, a, after, rfl, ha, hbefore⟩ := exists_settlement hfirst
    obtain ⟨hc, hk⟩ := hreg
    have hac : a.onCompleted = none := by
      cases a with
      | setOnCompleted => cases ha
      | _ => rfl
    have hak : a.onCancelled = none := by
      cases a with
      | setOnCancelled => cases ha
      | _ => rfl
    rw [List.filterMap_append, List.filterMap_cons, hac] at hc
    rw [List.filterMap_append, List.filterMap_cons, hak] at hk
    rw [invoked_of_run hbefore ha hr, inTime_iff hbefore ha]
    exact invoked_settlement_iff x hc hk

/-- Callback 1 for completion and 2 for cancellation, both behind a cancellation. -/
def registeredLate : List (Action ℕ ℕ ℕ) :=
  [.cancel, .setOnCancelled (some 2), .setOnCompleted (some 1), .setResult 5]

/-- The operation is cancelled, and the callback for completion runs. -/
theorem registeredLate_invoked : RegisteredOnce 1 2 registeredLate ∧
    ∃ s os, (machine ℕ ℕ ℕ fun _ => []).run {} registeredLate = some (s, os) ∧
      s.state = .cancelled ∧ os.filterMap Seen.invoked ≠ callbacksIn 1 2 s.state :=
  ⟨⟨rfl, rfl⟩, _, _, rfl, rfl, by decide⟩

/-- The equivalence on that sequence. -/
theorem invoked_eq_iff_registeredLate :
    ([2, 1] : List ℕ) = callbacksIn 1 2 .cancelled ↔ InTime registeredLate := by
  have hreg : RegisteredOnce 1 2 registeredLate := ⟨rfl, rfl⟩
  have hr : (machine ℕ ℕ ℕ fun _ => []).run {} registeredLate = _ := rfl
  exact invoked_eq_iff hreg hr

end PromiseOperation
