import Mathlib.Tactic.ByContra

/-!
# Labelled machines and their runs

A component that is called again and again is a state and a partial step:
`step s a` is what the action `a` does in the state `s`, with the result the
caller sees, and `none` where `a` is not enabled. A run is a list of actions.

Two questions are asked of a run. `Machine.Always P` asks whether `P` holds in
every state on the way, and `Machine.Refines N R` whether a second machine,
given the same actions, answers with the same results and stays related by
`R`. Where the answer depends on how the steps were taken, `Machine.Along C`
says that every step met the condition `C`, and the two rules
`Machine.always_iff_along` and `Machine.refines_iff_along` reduce the question
to one step: an invariant that a step meeting `C` keeps, and that a step
missing it visibly breaks. Where the question is about the steps themselves,
`Machine.along_iff_along` does the same.
-/

/-- **A labelled machine**: `step s a` is the next state and the result of the
action `a` in the state `s`, or `none` where `a` is not enabled there. -/
structure Machine (σ α ω : Type*) where
  /-- One action. -/
  step : σ → α → Option (σ × ω)

namespace Machine

variable {σ τ α ω : Type*} (M : Machine σ α ω) (N : Machine τ α ω)

/-- The state and the results after a list of actions, `none` if one of them
is not enabled when its turn comes. -/
def run : σ → List α → Option (σ × List ω)
  | s, [] => some (s, [])
  | s, a :: as =>
    (M.step s a).bind fun r => (run r.1 as).map fun q => (q.1, r.2 :: q.2)

@[simp] theorem run_nil (s : σ) : M.run s [] = some (s, []) := rfl

theorem run_cons (s : σ) (a : α) (as : List α) :
    M.run s (a :: as)
      = (M.step s a).bind fun r => (M.run r.1 as).map fun q => (q.1, r.2 :: q.2) :=
  rfl

/-- `P` holds in every state that the run visits, the first one included. -/
def Always (P : σ → Prop) : σ → List α → Prop
  | s, [] => P s
  | s, a :: as => P s ∧ ∀ r, M.step s a = some r → Always P r.1 as

/-- Every step of the run is taken in a state where it meets `C`. -/
def Along (C : σ → α → Prop) : σ → List α → Prop
  | _, [] => True
  | s, a :: as => ∀ r, M.step s a = some r → C s a ∧ Along C r.1 as

/-- **The runs of `M` are runs of `N`**: each step of `M` is answered by the
same action of `N` with the same result, and the states before and after are
related by `R`. -/
def Refines (R : σ → τ → Prop) : σ → τ → List α → Prop
  | s, t, [] => R s t
  | s, t, a :: as => R s t ∧ ∀ r, M.step s a = some r →
      ∃ t', N.step t a = some (t', r.2) ∧ Refines R r.1 t' as

/-- **The runs of `M` meet the specification `T`**, a relation between a state, an action,
its result and the next state: each step of `M` is one that `T` allows, and the states
before and after are related by `R`. -/
def Simulates (T : τ → α → ω → τ → Prop) (R : σ → τ → Prop) : σ → τ → List α → Prop
  | s, t, [] => R s t
  | s, t, a :: as => R s t ∧ ∀ r, M.step s a = some r →
      ∃ t', T t a r.2 t' ∧ Simulates T R r.1 t' as

variable {M N}

/-- A run begins with a step. -/
theorem run_cons_eq_some {s t : σ} {a : α} {as : List α} {os : List ω} :
    M.run s (a :: as) = some (t, os)
      ↔ ∃ r os', M.step s a = some r ∧ M.run r.1 as = some (t, os') ∧ r.2 :: os' = os := by
  rw [run_cons]
  constructor
  · intro h
    obtain ⟨r, hs, hr⟩ := Option.bind_eq_some_iff.mp h
    obtain ⟨q, hq, he⟩ := Option.map_eq_some_iff.mp hr
    cases he
    exact ⟨r, q.2, hs, hq, rfl⟩
  · rintro ⟨r, os', hs, hr, rfl⟩
    rw [hs, Option.bind_some, hr]
    rfl

/-- A run has a result for each action. -/
theorem length_of_run {s t : σ} {as : List α} {os : List ω} (hr : M.run s as = some (t, os)) :
    os.length = as.length := by
  induction as generalizing s os with
  | nil =>
    cases hr
    rfl
  | cons a as ih =>
    obtain ⟨r, os', hs, hr', rfl⟩ := run_cons_eq_some.mp hr
    rw [List.length_cons, List.length_cons, ih hr']

/-- A run in two parts. -/
theorem run_append_eq_some {s t : σ} {as bs : List α} {os : List ω} :
    M.run s (as ++ bs) = some (t, os)
      ↔ ∃ s' os' os'', M.run s as = some (s', os') ∧ M.run s' bs = some (t, os'')
        ∧ os' ++ os'' = os := by
  induction as generalizing s os with
  | nil =>
    constructor
    · intro h
      exact ⟨s, [], os, rfl, h, rfl⟩
    · rintro ⟨s', os', os'', hs', ht, rfl⟩
      cases hs'
      exact ht
  | cons a as ih =>
    rw [List.cons_append, run_cons_eq_some]
    constructor
    · rintro ⟨r, rest, hr, hrest, rfl⟩
      obtain ⟨s', os', os'', hs', ht, rfl⟩ := ih.mp hrest
      exact ⟨s', r.2 :: os', os'', run_cons_eq_some.mpr ⟨r, os', hr, hs', rfl⟩, ht, rfl⟩
    · rintro ⟨s', os', os'', hs', ht, rfl⟩
      obtain ⟨r, rest, hr, hrest, rfl⟩ := run_cons_eq_some.mp hs'
      exact ⟨r, rest ++ os'', hr, ih.mpr ⟨s', rest, os'', hrest, ht, rfl⟩, rfl⟩

/-- **The invariant rule with the actions so far.** What holds at the start, when nothing has
been done, and is kept by every step, with the action that it adds, holds at the end of every
run. -/
theorem run_history {I : σ → List α → Prop} {s t : σ} {as : List α} {os : List ω}
    (hstart : I s []) (hstep : ∀ s' before a r, I s' before → M.step s' a = some r →
      I r.1 (before ++ [a])) (hr : M.run s as = some (t, os)) : I t as := by
  have hrun : ∀ (s' : σ) (before as : List α) (os : List ω), I s' before →
      M.run s' as = some (t, os) → I t (before ++ as) := by
    intro s' before as
    induction as generalizing s' before with
    | nil =>
      intro os hI hr
      cases hr
      rwa [List.append_nil]
    | cons a as ih =>
      intro os hI hr
      obtain ⟨r, os', hs, hr', rfl⟩ := run_cons_eq_some.mp hr
      have hI' := ih r.1 (before ++ [a]) os' (hstep s' before a r hI hs) hr'
      rwa [List.append_assoc] at hI'
  exact hrun s [] as os hstart hr

theorem always_cons {P : σ → Prop} {s : σ} {a : α} {as : List α} {r : σ × ω}
    (h : M.step s a = some r) : M.Always P s (a :: as) ↔ P s ∧ M.Always P r.1 as := by
  refine and_congr_right fun _ => ⟨fun hall => hall r h, fun hr q hq => ?_⟩
  rw [h] at hq
  cases hq
  exact hr

theorem along_cons {C : σ → α → Prop} {s : σ} {a : α} {as : List α} {r : σ × ω}
    (h : M.step s a = some r) : M.Along C s (a :: as) ↔ C s a ∧ M.Along C r.1 as := by
  refine ⟨fun hall => hall r h, fun hr q hq => ?_⟩
  rw [h] at hq
  cases hq
  exact hr

/-- What a run goes through can be computed. -/
instance decidableAlways (P : σ → Prop) [DecidablePred P] :
    ∀ (s : σ) (as : List α), Decidable (M.Always P s as)
  | s, [] => inferInstanceAs (Decidable (P s))
  | s, a :: as =>
    match h : M.step s a with
    | none => decidable_of_iff (P s) ⟨fun hP => ⟨hP, fun r hr => by
        rw [h] at hr
        cases hr⟩, And.left⟩
    | some r =>
      have := decidableAlways P r.1 as
      decidable_of_iff (P s ∧ M.Always P r.1 as) (always_cons h).symm

instance decidableAlong (C : σ → α → Prop) [∀ s a, Decidable (C s a)] :
    ∀ (s : σ) (as : List α), Decidable (M.Along C s as)
  | _, [] => .isTrue trivial
  | s, a :: as =>
    match h : M.step s a with
    | none => .isTrue fun r hr => by
        rw [h] at hr
        cases hr
    | some r =>
      have := decidableAlong C r.1 as
      decidable_of_iff (C s a ∧ M.Along C r.1 as) (along_cons h).symm

/-- What holds throughout a run holds throughout its end. -/
theorem Always.of_append {P : σ → Prop} {s t : σ} {as bs : List α} {os : List ω}
    (h : M.Always P s (as ++ bs)) (hr : M.run s as = some (t, os)) : M.Always P t bs := by
  induction as generalizing s os with
  | nil =>
    simp only [run_nil, Option.some.injEq, Prod.mk.injEq] at hr
    exact hr.1 ▸ h
  | cons a as ih =>
    obtain ⟨r, os', hs, hr', rfl⟩ := run_cons_eq_some.mp hr
    exact ih (h.2 r hs) hr'

/-- A condition on the steps of a run is one on those of its two parts. -/
theorem along_append {C : σ → α → Prop} {s t : σ} {as bs : List α} {os : List ω}
    (hr : M.run s as = some (t, os)) :
    M.Along C s (as ++ bs) ↔ M.Along C s as ∧ M.Along C t bs := by
  induction as generalizing s os with
  | nil =>
    cases hr
    exact (and_iff_right trivial).symm
  | cons a as ih =>
    obtain ⟨r, os', hstep, hrest, -⟩ := run_cons_eq_some.mp hr
    rw [List.cons_append, along_cons hstep, along_cons hstep, ih hrest, and_assoc]

/-- A condition on the steps of a run is one on the steps of its end. -/
theorem Along.of_append {C : σ → α → Prop} {s t : σ} {as bs : List α} {os : List ω}
    (h : M.Along C s (as ++ bs)) (hr : M.run s as = some (t, os)) : M.Along C t bs :=
  ((along_append hr).mp h).2

/-- What holds in every visited state holds in the last one. -/
theorem Always.of_run {P : σ → Prop} {s t : σ} {as : List α} {os : List ω}
    (h : M.Always P s as) (hr : M.run s as = some (t, os)) : P t := by
  rw [← List.append_nil as] at h
  exact h.of_append hr

/-- A refined run, seen from its end. -/
theorem Refines.of_run {R : σ → τ → Prop} {s s' : σ} {t : τ} {as : List α} {os : List ω}
    (h : M.Refines N R s t as) (hr : M.run s as = some (s', os)) :
    ∃ t', N.run t as = some (t', os) ∧ R s' t' := by
  induction as generalizing s t os with
  | nil =>
    simp only [run_nil, Option.some.injEq, Prod.mk.injEq] at hr
    obtain ⟨rfl, rfl⟩ := hr
    exact ⟨t, rfl, h⟩
  | cons a as ih =>
    obtain ⟨r, os', hs, hr', rfl⟩ := run_cons_eq_some.mp hr
    obtain ⟨t₁, ht₁, hrest⟩ := h.2 r hs
    obtain ⟨t', ht', hR⟩ := ih hrest hr'
    exact ⟨t', run_cons_eq_some.mpr ⟨_, os', ht₁, ht', rfl⟩, hR⟩

/-- **The invariant rule under a condition on the steps.** If `I` implies `P`
and every step that meets `C` keeps `I`, then `P` holds throughout every run
whose steps all meet `C`. -/
theorem always_of_along {I P : σ → Prop} {C : σ → α → Prop}
    (hP : ∀ s, I s → P s)
    (hstep : ∀ s a r, I s → C s a → M.step s a = some r → I r.1)
    {s : σ} {as : List α} (hs : I s) (hc : M.Along C s as) : M.Always P s as := by
  induction as generalizing s with
  | nil => exact hP s hs
  | cons a as ih =>
    refine ⟨hP s hs, fun r hr => ?_⟩
    obtain ⟨hca, hcs⟩ := hc r hr
    exact ih (hstep s a r hs hca hr) hcs

variable (M) in
/-- A condition on the actions alone. -/
theorem along_of_forall (s : σ) {as : List α} {C : α → Prop} (h : ∀ a ∈ as, C a) :
    M.Along (fun _ a => C a) s as := by
  induction as generalizing s with
  | nil => trivial
  | cons a as ih =>
    exact fun r _ => ⟨h a List.mem_cons_self, ih r.1 fun b hb => h b (List.mem_cons_of_mem _ hb)⟩

/-- Every step meets the condition that is always true. -/
theorem along_true (s : σ) (as : List α) : M.Along (fun _ _ => True) s as :=
  M.along_of_forall s fun _ _ => trivial

/-- **The invariant rule with a history, under a condition on the steps.** What holds at the
start, with no results yet, and is kept by every step that meets `C`, with the result that it
adds, holds at the end of every run whose steps all meet `C`. -/
theorem Along.run_invariant {I : σ → List ω → Prop} {C : σ → α → Prop} {s t : σ} {as : List α}
    {os : List ω} (hc : M.Along C s as) (hstart : I s [])
    (hstep : ∀ s' os' a r, I s' os' → C s' a → M.step s' a = some r → I r.1 (os' ++ [r.2]))
    (hr : M.run s as = some (t, os)) : I t os := by
  -- the results so far are those of the steps already taken
  have hrun : ∀ (s' : σ) (before : List ω) (as : List α) (os : List ω), I s' before →
      M.Along C s' as → M.run s' as = some (t, os) → I t (before ++ os) := by
    intro s' before as
    induction as generalizing s' before with
    | nil =>
      intro os hI hc hr
      cases hr
      rwa [List.append_nil]
    | cons a as ih =>
      intro os hI hc hr
      obtain ⟨r, os', hs, hr', rfl⟩ := run_cons_eq_some.mp hr
      obtain ⟨hca, hcs⟩ := hc r hs
      have hI' := ih r.1 (before ++ [r.2]) os' (hstep s' before a r hI hca hs) hcs hr'
      rwa [List.append_assoc] at hI'
  exact hrun s [] as os hstart hc hr

/-- **The invariant rule with a history.** What holds at the start, with no results yet, and is
kept by every step, with the result that it adds, holds at the end of every run. -/
theorem run_invariant {I : σ → List ω → Prop} {s t : σ} {as : List α} {os : List ω}
    (hstart : I s []) (hstep : ∀ s' os' a r, I s' os' → M.step s' a = some r → I r.1 (os' ++ [r.2]))
    (hr : M.run s as = some (t, os)) : I t os :=
  Along.run_invariant (along_true s as) hstart (fun s' os' a r hI _ => hstep s' os' a r hI) hr

/-- **The invariant rule.** If `I` implies `P` and every step keeps `I`, then `P` holds
throughout every run. -/
theorem always_of_step {I P : σ → Prop} (hP : ∀ s, I s → P s)
    (hstep : ∀ s a r, I s → M.step s a = some r → I r.1) {s : σ} {as : List α} (hs : I s) :
    M.Always P s as :=
  always_of_along hP (fun s a r hI _ hr => hstep s a r hI hr) hs (along_true s as)

/-- **The exact condition on a domain.** Along a run whose steps all stay in `D`: if a step that
meets `C` keeps `I`, and one that misses it leads to a state without `P`, then `P` holds
throughout the run exactly when all its steps meet `C`. -/
theorem always_iff_along_of {I P : σ → Prop} {C D : σ → α → Prop}
    (hP : ∀ s, I s → P s)
    (hstep : ∀ s a r, I s → D s a → C s a → M.step s a = some r → I r.1)
    (hbreak : ∀ s a r, I s → D s a → ¬ C s a → M.step s a = some r → ¬ P r.1)
    {s : σ} {as : List α} (hs : I s) (hD : M.Along D s as) : M.Always P s as ↔ M.Along C s as := by
  induction as generalizing s with
  | nil => exact ⟨fun _ => trivial, fun _ => hP s hs⟩
  | cons a as ih =>
    constructor
    · intro h r hr
      obtain ⟨hDa, hDs⟩ := hD r hr
      have hrest := h.2 r hr
      have hPr : P r.1 := by
        cases as with
        | nil => exact hrest
        | cons b bs => exact hrest.1
      have hca : C s a := by
        by_contra hn
        exact hbreak s a r hs hDa hn hr hPr
      exact ⟨hca, (ih (hstep s a r hs hDa hca hr) hDs).mp hrest⟩
    · intro h
      refine ⟨hP s hs, fun r hr => ?_⟩
      obtain ⟨hDa, hDs⟩ := hD r hr
      obtain ⟨hca, hcs⟩ := h r hr
      exact (ih (hstep s a r hs hDa hca hr) hDs).mpr hcs

/-- **The exact condition.** If a step that meets `C` keeps `I`, and one that
misses it leads to a state without `P`, then `P` holds throughout a run exactly
when all its steps meet `C`. -/
theorem always_iff_along {I P : σ → Prop} {C : σ → α → Prop}
    (hP : ∀ s, I s → P s)
    (hstep : ∀ s a r, I s → C s a → M.step s a = some r → I r.1)
    (hbreak : ∀ s a r, I s → ¬ C s a → M.step s a = some r → ¬ P r.1)
    {s : σ} {as : List α} (hs : I s) : M.Always P s as ↔ M.Along C s as :=
  always_iff_along_of hP (fun s a r hI _ => hstep s a r hI) (fun s a r hI _ => hbreak s a r hI) hs
    (along_true s as)

/-- What every step that meets `C` does under an invariant that such steps keep, all steps do
of a run that meets `C`. -/
theorem along_of_along {I : σ → Prop} {C D : σ → α → Prop}
    (hstep : ∀ s a r, I s → C s a → M.step s a = some r → I r.1)
    (hD : ∀ s a r, I s → C s a → M.step s a = some r → D s a)
    {s : σ} {as : List α} (hs : I s) (hc : M.Along C s as) : M.Along D s as := by
  induction as generalizing s with
  | nil => trivial
  | cons a as ih =>
    intro r hr
    obtain ⟨hca, hcs⟩ := hc r hr
    exact ⟨hD s a r hs hca hr, ih (hstep s a r hs hca hr) hcs⟩

/-- A condition that is weaker is met as well. -/
theorem Along.imp {C D : σ → α → Prop} {s : σ} {as : List α} (hc : M.Along C s as)
    (h : ∀ s a, C s a → D s a) : M.Along D s as :=
  along_of_along (I := fun _ => True) (fun _ _ _ _ _ _ => trivial)
    (fun s a _ _ hC _ => h s a hC) trivial hc

/-- Two conditions on the steps that agree under an invariant of all steps hold along the
same runs. -/
theorem along_iff_along {I : σ → Prop} {C D : σ → α → Prop}
    (hstep : ∀ s a r, I s → M.step s a = some r → I r.1)
    (hiff : ∀ s a r, I s → M.step s a = some r → (C s a ↔ D s a))
    {s : σ} {as : List α} (hs : I s) : M.Along C s as ↔ M.Along D s as := by
  induction as generalizing s with
  | nil => exact Iff.rfl
  | cons a as ih =>
    refine forall_congr' fun r => imp_congr_right fun hr => ?_
    exact and_congr (hiff s a r hs hr) (ih (hstep s a r hs hr))

/-- Two conditions that all steps of a run meet. -/
theorem Along.and {C D : σ → α → Prop} {s : σ} {as : List α} (hC : M.Along C s as)
    (hD : M.Along D s as) : M.Along (fun s a => C s a ∧ D s a) s as := by
  induction as generalizing s with
  | nil => trivial
  | cons a as ih =>
    intro r hr
    obtain ⟨hCa, hCs⟩ := hC r hr
    obtain ⟨hDa, hDs⟩ := hD r hr
    exact ⟨⟨hCa, hDa⟩, ih hCs hDs⟩

/-- **What a run comes to.** If a step that meets `C` keeps `I`, one that misses it leads to
`L`, and nothing leads out of `L`, then a run ends in `I` if all its steps meet `C`, and in
`L` otherwise. -/
theorem run_of_along {I L : σ → Prop} {C : σ → α → Prop}
    (hstep : ∀ s a r, I s → C s a → M.step s a = some r → I r.1)
    (hbreak : ∀ s a r, I s → ¬ C s a → M.step s a = some r → L r.1)
    (hlost : ∀ s a r, L s → M.step s a = some r → L r.1)
    {s t : σ} {as : List α} {os : List ω} (hs : I s) (hr : M.run s as = some (t, os)) :
    M.Along C s as ∧ I t ∨ ¬ M.Along C s as ∧ L t := by
  -- what is lost stays lost to the end of the run
  have hend : ∀ (s : σ) (as : List α) (os : List ω), L s → M.run s as = some (t, os) → L t := by
    intro s as
    induction as generalizing s with
    | nil =>
      intro os hL hr
      cases hr
      exact hL
    | cons a as ih =>
      intro os hL hr
      obtain ⟨r, os', hs, hr', rfl⟩ := run_cons_eq_some.mp hr
      exact ih r.1 os' (hlost s a r hL hs) hr'
  induction as generalizing s os with
  | nil =>
    cases hr
    exact Or.inl ⟨trivial, hs⟩
  | cons a as ih =>
    obtain ⟨r, os', hstp, hr', rfl⟩ := run_cons_eq_some.mp hr
    rw [along_cons hstp]
    by_cases hc : C s a
    · rcases ih (hstep s a r hs hc hstp) hr' with ⟨halong, hI⟩ | ⟨hno, hL⟩
      · exact Or.inl ⟨⟨hc, halong⟩, hI⟩
      · exact Or.inr ⟨fun hall => hno hall.2, hL⟩
    · exact Or.inr ⟨fun hall => hc hall.1, hend r.1 as os' (hbreak s a r hs hc hstp) hr'⟩

/-- **The simulation rule with its exact condition.** `I` is the relation that
is kept, `R` the one that is promised and `D` the domain the actions stay in,
read off the machine `N`, which is never stuck. A step that meets `C` is
answered by `N` and keeps `I`; after a step that misses `C`, no answer of `N`
with the same result leaves the states related. -/
theorem refines_iff_along {I R : σ → τ → Prop} {C : σ → α → Prop} {D : τ → α → Prop}
    (htotal : ∀ t a, ∃ q, N.step t a = some q) (hR : ∀ s t, I s t → R s t)
    (hstep : ∀ s t a r, I s t → D t a → C s a → M.step s a = some r →
      ∃ t', N.step t a = some (t', r.2) ∧ I r.1 t')
    (hbreak : ∀ s t a r t', I s t → D t a → ¬ C s a → M.step s a = some r →
      N.step t a = some (t', r.2) → ¬ R r.1 t')
    {s : σ} {t : τ} {as : List α} (hI : I s t) (hD : N.Along D t as) :
    M.Refines N R s t as ↔ M.Along C s as := by
  induction as generalizing s t with
  | nil => exact ⟨fun _ => trivial, fun _ => hR s t hI⟩
  | cons a as ih =>
    obtain ⟨q, hq⟩ := htotal t a
    obtain ⟨hDa, hDs⟩ := hD q hq
    -- one step that meets `C` leaves the two machines where the induction applies
    have hnext : ∀ r, C s a → M.step s a = some r →
        N.step t a = some (q.1, r.2) ∧ (M.Refines N R r.1 q.1 as ↔ M.Along C r.1 as) := by
      intro r hc hr
      obtain ⟨t', ht', hI'⟩ := hstep s t a r hI hDa hc hr
      rw [hq, Option.some.injEq] at ht'
      subst ht'
      exact ⟨hq, ih hI' hDs⟩
    constructor
    · rintro ⟨-, h⟩ r hr
      obtain ⟨t', ht', hrest⟩ := h r hr
      have hc : C s a := by
        by_contra hn
        refine hbreak s t a r t' hI hDa hn hr ht' ?_
        cases as with
        | nil => exact hrest
        | cons b bs => exact hrest.1
      obtain ⟨hq', hiff⟩ := hnext r hc hr
      rw [ht', Option.some.injEq, Prod.mk.injEq] at hq'
      rw [hq'.1] at hrest
      exact ⟨hc, hiff.mp hrest⟩
    · intro h
      refine ⟨hR s t hI, fun r hr => ?_⟩
      obtain ⟨hc, hcs⟩ := h r hr
      obtain ⟨hq', hiff⟩ := hnext r hc hr
      exact ⟨q.1, hq', hiff.mpr hcs⟩

/-- **The simulation rule for a specification.** If every step that meets `C` from related
states is allowed by `T` and leads to related states, then every run whose steps all meet
`C` meets the specification. -/
theorem simulates_of_along {T : τ → α → ω → τ → Prop} {R : σ → τ → Prop} {C : σ → α → Prop}
    (hstep : ∀ s t a r, R s t → C s a → M.step s a = some r → ∃ t', T t a r.2 t' ∧ R r.1 t')
    {s : σ} {t : τ} {as : List α} (hR : R s t) (hc : M.Along C s as) :
    M.Simulates T R s t as := by
  induction as generalizing s t with
  | nil => exact hR
  | cons a as ih =>
    refine ⟨hR, fun r hr => ?_⟩
    obtain ⟨hca, hcs⟩ := hc r hr
    obtain ⟨t', hT, hR'⟩ := hstep s t a r hR hca hr
    exact ⟨t', hT, ih hR' hcs⟩

end Machine
