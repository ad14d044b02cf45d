import HttpServer.WorkPool
import Mathlib.Data.List.Nodup

/-!
# Tasks that wait for others

A task that waits for another one keeps its worker while it waits, and a pool whose workers all
wait stands still. This cannot happen if each task waits only for tasks that were put in before it,
however few the workers are: they take tasks in order, so that what a task in their hands waits for
is in their hands too, or done, and the earliest of the tasks in their hands waits for nothing
(`Account.exists_ready`).
-/

namespace WorkPool

variable {τ : Type*} {p : WorkPool τ} {history done : List τ}

/-- **Tasks wait for earlier ones only**, in the order in which they were put in. -/
def WaitForEarlier (waits : τ → τ → Prop) (history : List τ) : Prop :=
  ∀ pre t post, history = pre ++ t :: post → ∀ t', waits t t' → t' ∈ pre

/-- Another task is put in, which waits for tasks in front of it. -/
theorem WaitForEarlier.concat {waits : τ → τ → Prop} (h : WaitForEarlier waits history) {t : τ}
    (ht : ∀ t', waits t t' → t' ∈ history) : WaitForEarlier waits (history ++ [t]) := by
  intro pre t₀ post hsplit t' hwaits
  obtain ⟨mid, rfl, hmid⟩ | ⟨mid, rfl, hmid⟩ := List.append_eq_append_iff.mp hsplit
  · obtain ⟨rfl, hlast⟩ | ⟨rest, -, hnil⟩ := List.cons_eq_append_iff.mp hmid
    · cases hlast
      rw [List.append_nil]
      exact ht t' hwaits
    · cases (List.append_eq_nil_iff.mp hnil.symm).2
  · cases mid with
    | nil =>
      rw [List.nil_append] at hmid
      cases hmid
      have hmem := ht t' hwaits
      rwa [List.append_nil] at hmem
    | cons first mid =>
      cases hmid
      exact h pre t₀ mid rfl t' hwaits

/-- A task that is finished was in the hands of a worker. -/
theorem Step.mem_held_of_finish {p' : WorkPool τ} {i : ℕ} {t : τ} (h : Step p (.finish i t) p') :
    t ∈ p.held := by
  cases h with
  | finish hi => exact mem_held_of_hands hi

/-- **A pool whose tasks wait for earlier ones never stands still**: if any task is in the hands
of a worker, there is one whose wait is over. -/
theorem Account.exists_ready {waits : τ → τ → Prop} (h : Account p history done)
    (hnodup : history.Nodup) (hearlier : WaitForEarlier waits history) (hheld : p.held ≠ []) :
    ∃ t ∈ p.held, ∀ t', waits t t' → t' ∈ done := by
  obtain ⟨taken, htaken⟩ := h.queue_suffix
  have hall : (done ++ (p.held ++ p.queue)).Perm history := h.perm
  have hperm : (done ++ p.held).Perm taken := by
    rw [← List.append_assoc, ← htaken] at hall
    exact (List.perm_append_right_iff p.queue).mp hall
  have hheld_not : ∀ t ∈ p.held, t ∉ done := fun t ht hdone =>
    List.disjoint_of_nodup_append (hall.nodup_iff.mpr hnodup) hdone
      (List.mem_append_left p.queue ht)
  -- the first of the tasks that were taken and are not done
  have hfirst : ∃ before t after, taken = before ++ t :: after ∧ t ∉ done
      ∧ ∀ t' ∈ before, t' ∈ done := by
    classical
    obtain ⟨t₀, ht₀⟩ := List.exists_mem_of_ne_nil _ hheld
    have hsome : (taken.find? fun t => decide (t ∉ done)).isSome := by
      rw [List.find?_isSome]
      exact ⟨t₀, hperm.mem_iff.mp (List.mem_append_right done ht₀),
        decide_eq_true (hheld_not t₀ ht₀)⟩
    obtain ⟨t, hfind⟩ := Option.isSome_iff_exists.mp hsome
    obtain ⟨hnot, before, after, hsplit, hbefore⟩ := List.find?_eq_some_iff_append.mp hfind
    refine ⟨before, t, after, hsplit, of_decide_eq_true hnot, fun t' ht' => ?_⟩
    have hdone := hbefore t' ht'
    rwa [Bool.not_eq_true', decide_eq_false_iff_not, not_not] at hdone
  obtain ⟨before, t, after, hsplit, hnot, hbefore⟩ := hfirst
  have hmem : t ∈ done ++ p.held := hperm.mem_iff.mpr (by rw [hsplit]; simp)
  refine ⟨t, (List.mem_append.mp hmem).resolve_left hnot, fun t' hwaits => hbefore t' ?_⟩
  refine hearlier before t (after ++ p.queue) ?_ t' hwaits
  rw [← htaken, hsplit, List.append_assoc, List.cons_append]

end WorkPool
