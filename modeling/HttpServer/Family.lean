import HttpServer.Machine
import Mathlib.Algebra.BigOperators.Group.Finset.Piecewise

/-!
# Families of machines

`Machine.family M` is one machine of the same kind for each index, taking its steps
independently of the others: an action names the index it is for. Such a family is what a
component that keeps the data of many clients is meant to be, and a run of it is, for each of
them, a run of its own (`Machine.run_family`).

What the component really has is one state that all of them share. Two machines are in
lockstep if whatever one of them can do the other can do too (`Machine.Lockstep`), and then
they have the same runs. So a component that is in lockstep with a family keeps its clients
apart. A counter that it has for all of them is a sum (`AddsUp`).
-/

namespace Machine

variable {σ τ α ω κ : Type*}

/-! ## Lockstep -/

/-- **Two machines are in lockstep** along a relation of their states: in related states both can
do the same actions, with the same result, and the states behind are related again. -/
def Lockstep (M : Machine σ α ω) (N : Machine τ α ω) (R : σ → τ → Prop) : Prop :=
  ∀ ⦃s t⦄, R s t → ∀ a,
    Option.Rel (fun r q => R r.1 q.1 ∧ r.2 = q.2) (M.step s a) (N.step t a)

/-- **Machines in lockstep have the same runs.** -/
theorem Lockstep.run {M : Machine σ α ω} {N : Machine τ α ω} {R : σ → τ → Prop}
    (h : M.Lockstep N R) {s : σ} {t : τ} (hR : R s t) (as : List α) :
    Option.Rel (fun r q => R r.1 q.1 ∧ r.2 = q.2) (M.run s as) (N.run t as) := by
  induction as generalizing s t with
  | nil => exact .some ⟨hR, rfl⟩
  | cons a as ih =>
    have hstep := h hR a
    rw [run_cons, run_cons]
    generalize M.step s a = r, N.step t a = q at hstep
    cases hstep with
    | none => exact .none
    | @some r q hrq =>
      have hrest := ih hrq.1
      rw [Option.bind_some, Option.bind_some]
      generalize M.run r.1 as = r', N.run q.1 as = q' at hrest
      cases hrest with
      | none => exact .none
      | some hrest => exact .some ⟨hrest.1, congrArg₂ List.cons hrq.2 hrest.2⟩

/-- A run of the first is one of the second. -/
theorem Lockstep.run_right {M : Machine σ α ω} {N : Machine τ α ω} {R : σ → τ → Prop}
    (h : M.Lockstep N R) {s s' : σ} {t : τ} (hR : R s t) {as : List α} {os : List ω}
    (hrun : M.run s as = some (s', os)) : ∃ t', N.run t as = some (t', os) ∧ R s' t' := by
  have hrel := h.run hR as
  rw [hrun] at hrel
  generalize N.run t as = q at hrel ⊢
  cases hrel with
  | @some _ q hq =>
    obtain ⟨hR', rfl⟩ := hq
    exact ⟨q.1, rfl, hR'⟩

/-- A run of the second is one of the first. -/
theorem Lockstep.run_left {M : Machine σ α ω} {N : Machine τ α ω} {R : σ → τ → Prop}
    (h : M.Lockstep N R) {s : σ} {t t' : τ} (hR : R s t) {as : List α} {os : List ω}
    (hrun : N.run t as = some (t', os)) : ∃ s', M.run s as = some (s', os) ∧ R s' t' := by
  have hrel := h.run hR as
  rw [hrun] at hrel
  generalize M.run s as = r at hrel ⊢
  cases hrel with
  | @some r _ hr =>
    obtain ⟨hR', rfl⟩ := hr
    exact ⟨r.1, rfl, hR'⟩

/-! ## The family -/

variable [DecidableEq κ] (M : Machine σ α ω)

/-- **One machine for each index**: an action is taken by the machine it names. -/
def family (κ : Type*) [DecidableEq κ] (M : Machine σ α ω) : Machine (κ → σ) (κ × α) ω :=
  ⟨fun f a => (M.step (f a.1) a.2).map fun r => (Function.update f a.1 r.1, r.2)⟩

/-- The actions for one index. -/
def actionsOf (c : κ) (as : List (κ × α)) : List α :=
  (as.filter fun a => a.1 = c).map Prod.snd

theorem actionsOf_cons_self (c : κ) (a : α) (as : List (κ × α)) :
    actionsOf c ((c, a) :: as) = a :: actionsOf c as := by
  rw [actionsOf, List.filter_cons_of_pos (by simp), List.map_cons]
  rfl

theorem actionsOf_eq_nil {c : κ} {as : List (κ × α)} (h : c ∉ as.map Prod.fst) :
    actionsOf c as = [] := by
  rw [actionsOf, List.map_eq_nil_iff, List.filter_eq_nil_iff]
  intro a ha hc
  obtain rfl : a.1 = c := by simpa using hc
  exact h (List.mem_map_of_mem ha)

theorem actionsOf_cons_of_ne {c d : κ} (h : d ≠ c) (a : α) (as : List (κ × α)) :
    actionsOf c ((d, a) :: as) = actionsOf c as := by
  rw [actionsOf, List.filter_cons_of_neg (by simpa using h)]
  rfl

/-- The actions for one index, with the index. -/
theorem filter_eq_map_actionsOf (c : κ) (as : List (κ × α)) :
    (as.filter fun a => a.1 = c) = (actionsOf c as).map (Prod.mk c) := by
  rw [actionsOf, List.map_map]
  refine (List.map_id _).symm.trans (List.map_congr_left fun a ha => ?_)
  obtain rfl : a.1 = c := by simpa using (List.mem_filter.mp ha).2
  rfl

variable {M}

/-- **A run of the family is a run of each machine**, with the actions for it. -/
theorem run_family {f g : κ → σ} {as : List (κ × α)} {os : List ω}
    (h : (family κ M).run f as = some (g, os)) (c : κ) :
    ∃ os', M.run (f c) (actionsOf c as) = some (g c, os') := by
  induction as generalizing f os with
  | nil =>
    cases h
    exact ⟨[], rfl⟩
  | cons a as ih =>
    obtain ⟨d, a⟩ := a
    obtain ⟨r, os', hs, hr, rfl⟩ := run_cons_eq_some.mp h
    obtain ⟨p, hp, rfl⟩ := Option.map_eq_some_iff.mp hs
    obtain ⟨os₁, hrun⟩ := ih hr
    dsimp only at hp hrun
    by_cases hc : d = c
    · subst hc
      rw [Function.update_self] at hrun
      rw [actionsOf_cons_self]
      exact ⟨_, run_cons_eq_some.mpr ⟨p, os₁, hp, hrun, rfl⟩⟩
    · rw [Function.update_of_ne (Ne.symm hc)] at hrun
      rw [actionsOf_cons_of_ne hc]
      exact ⟨os₁, hrun⟩

/-- **A run of one machine is a run of the family** in which the others stand still. -/
theorem run_family_of_run {f : κ → σ} {c : κ} {p : σ} {as : List α} {os : List ω}
    (h : M.run (f c) as = some (p, os)) :
    (family κ M).run f (as.map (Prod.mk c)) = some (Function.update f c p, os) := by
  induction as generalizing f os with
  | nil =>
    cases h
    rw [Function.update_eq_self]
    rfl
  | cons a as ih =>
    obtain ⟨r, os', hs, hr, rfl⟩ := run_cons_eq_some.mp h
    have hstep : (family κ M).step f (c, a) = some (Function.update f c r.1, r.2) := by
      show (M.step (f c) a).map _ = _
      rw [hs]
      rfl
    have hrest := @ih (Function.update f c r.1) os' (by rw [Function.update_self]; exact hr)
    rw [Function.update_idem] at hrest
    exact run_cons_eq_some.mpr ⟨_, os', hstep, hrest, rfl⟩

end Machine

/-! ## Counters -/

/-- **A family of numbers adds up**: their sum is the total, whatever finite set it is taken over
that has all of them that are not 0. -/
def AddsUp {κ : Type*} (n : κ → ℕ) (total : ℕ) : Prop :=
  ∀ C : Finset κ, (∀ c ∉ C, n c = 0) → total = ∑ c ∈ C, n c

/-- One of the numbers goes up by one, and so does the total. -/
theorem AddsUp.succ {κ : Type*} [DecidableEq κ] {n : κ → ℕ} {total : ℕ} (h : AddsUp n total)
    (c : κ) : AddsUp (Function.update n c (n c + 1)) (total + 1) := by
  intro C hC
  have hc : c ∈ C := by
    by_contra hc
    have hzero := hC c hc
    rw [Function.update_self] at hzero
    exact Nat.succ_ne_zero _ hzero
  have htotal : total = ∑ d ∈ C, n d := by
    refine h C fun d hd => ?_
    have hne : d ≠ c := fun he => hd (he ▸ hc)
    have hzero := hC d hd
    rwa [Function.update_of_ne hne] at hzero
  rw [Finset.sum_update_of_mem hc, Finset.sdiff_singleton_eq_erase, htotal,
    ← Finset.add_sum_erase C n hc, Nat.add_right_comm]
