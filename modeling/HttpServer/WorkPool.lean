import Mathlib.Data.List.ReduceOption

/-!
# A pool of workers with one queue

Tasks are put into a queue, workers take them off its front and finish them one by one:
what a thread pool is for, without locks, conditions and counters. `WorkPool.Step` says
what can happen to a task.

Two facts hold in every run. No task is lost or made twice: those that are finished, in
the hands of a worker or queued are those that were put in (`Account.perm`). And the queue
is in order: it is what came in last (`Account.queue_suffix`). That tasks *finish* in
order is not among them, since a worker may be overtaken. It is so as long as each is
finished in its turn, before any that was taken after it (`Account.finish_prefix_iff`).
-/

/-- The queue of a pool, and what each worker has in its hands. -/
structure WorkPool (τ : Type*) where
  queue : List τ
  hands : List (Option τ)

namespace WorkPool

variable {τ : Type*}

/-- What can happen to a task. -/
inductive Move (τ : Type*)
  /-- Nothing. -/
  | rest
  /-- It is put into the queue. -/
  | put (t : τ)
  /-- A worker takes the first one of the queue. -/
  | take (i : ℕ)
  /-- A worker has finished it. -/
  | finish (i : ℕ) (t : τ)

/-- **One step of a pool.** -/
inductive Step : WorkPool τ → Move τ → WorkPool τ → Prop
  | rest (p : WorkPool τ) : Step p .rest p
  | put (p : WorkPool τ) (t : τ) : Step p (.put t) ⟨p.queue ++ [t], p.hands⟩
  | take {queue : List τ} {hands : List (Option τ)} {i : ℕ} {t : τ}
      (h : hands[i]? = some none) : Step ⟨t :: queue, hands⟩ (.take i) ⟨queue, hands.set i (some t)⟩
  | finish {queue : List τ} {hands : List (Option τ)} {i : ℕ} {t : τ}
      (h : hands[i]? = some (some t)) : Step ⟨queue, hands⟩ (.finish i t) ⟨queue, hands.set i none⟩

theorem Step.eq_of_rest {p p' : WorkPool τ} (h : Step p .rest p') : p' = p := by
  cases h
  rfl

/-- The tasks in the hands of the workers. -/
def held (p : WorkPool τ) : List τ := p.hands.reduceOption

/-- The tasks that are not finished. -/
def outstanding (p : WorkPool τ) : List τ := p.held ++ p.queue

theorem reduceOption_cons (hand : Option τ) (hands : List (Option τ)) :
    (hand :: hands).reduceOption = hand.toList ++ hands.reduceOption := by
  cases hand <;> rfl

/-- One hand changes what it holds. -/
theorem reduceOption_set {hands : List (Option τ)} {i : ℕ} {hand : Option τ}
    (h : hands[i]? = some hand) (hand' : Option τ) :
    (hand.toList ++ (hands.set i hand').reduceOption).Perm
      (hand'.toList ++ hands.reduceOption) := by
  induction hands generalizing i with
  | nil => cases h
  | cons first hands ih =>
    cases i with
    | zero =>
      cases h
      rw [List.set_cons_zero, reduceOption_cons, reduceOption_cons]
      exact List.perm_append_comm_assoc _ _ _
    | succ i =>
      rw [List.getElem?_cons_succ] at h
      rw [List.set_cons_succ, reduceOption_cons, reduceOption_cons]
      refine (List.perm_append_comm_assoc _ _ _).trans ?_
      exact ((ih h).append_left first.toList).trans (List.perm_append_comm_assoc _ _ _)

/-- A free hand takes a task. -/
theorem reduceOption_set_some {hands : List (Option τ)} {i : ℕ} (t : τ)
    (h : hands[i]? = some none) :
    ((hands.set i (some t)).reduceOption).Perm (t :: hands.reduceOption) :=
  reduceOption_set h (some t)

/-- A hand lets its task go. -/
theorem reduceOption_set_none {hands : List (Option τ)} {i : ℕ} {t : τ}
    (h : hands[i]? = some (some t)) :
    (hands.reduceOption).Perm (t :: (hands.set i none).reduceOption) :=
  (reduceOption_set h none).symm

/-- What a worker holds is held. -/
theorem mem_held_of_hands {p : WorkPool τ} {i : ℕ} {t : τ} (h : p.hands[i]? = some (some t)) :
    t ∈ p.held :=
  (reduceOption_set_none h).mem_iff.mpr List.mem_cons_self

/-- Taking a task moves it from the queue to a hand. -/
theorem Step.outstanding_of_take {p p' : WorkPool τ} {i : ℕ} (h : Step p (.take i) p') :
    p'.outstanding.Perm p.outstanding := by
  cases h with
  | take hi => exact ((reduceOption_set_some _ hi).append_right _).trans List.perm_middle.symm

/-! ## The account of a run -/

/-- **The account of the tasks**: `history` are those that were put in and `done` those
that were finished, both in order. -/
structure Account (p : WorkPool τ) (history done : List τ) : Prop where
  queue_suffix : p.queue <:+ history
  perm : (done ++ p.outstanding).Perm history

variable {p p' : WorkPool τ} {history done : List τ}

/-- A pool at its start. -/
theorem Account.start (n : ℕ) : Account (⟨[], List.replicate n none⟩ : WorkPool τ) [] [] where
  queue_suffix := List.suffix_rfl
  perm := by
    rw [outstanding, held, List.reduceOption_replicate_none]
    exact List.Perm.refl _

theorem Account.put (h : Account p history done) {t : τ} (hs : Step p (.put t) p') :
    Account p' (history ++ [t]) done := by
  cases hs
  refine ⟨?_, ?_⟩
  · obtain ⟨pre, hpre⟩ := h.queue_suffix
    exact ⟨pre, by rw [← hpre, List.append_assoc]⟩
  · have hperm := h.perm.append_right [t]
    rwa [outstanding, List.append_assoc, List.append_assoc] at hperm

theorem Account.take (h : Account p history done) {i : ℕ} (hs : Step p (.take i) p') :
    Account p' history done := by
  have hperm := (hs.outstanding_of_take.append_left done).trans h.perm
  cases hs with
  | take hi => exact ⟨(List.suffix_cons _ _).trans h.queue_suffix, hperm⟩

theorem Account.finish (h : Account p history done) {i : ℕ} {t : τ}
    (hs : Step p (.finish i t) p') : Account p' history (done ++ [t]) := by
  cases hs with
  | finish hi =>
    refine ⟨h.queue_suffix, List.Perm.trans ?_ h.perm⟩
    rw [List.append_assoc]
    exact List.Perm.append_left done ((reduceOption_set_none hi).symm.append_right _)

/-- The same is queued and in the hands of the workers. -/
theorem Account.congr (h : Account p history done) (hqueue : p'.queue = p.queue)
    (hheld : p'.held = p.held) : Account p' history done := by
  refine ⟨hqueue ▸ h.queue_suffix, ?_⟩
  rw [outstanding, hheld, hqueue]
  exact h.perm

/-- The first task is taken out of the queue and counts as done. -/
theorem Account.drop (h : Account p history done) {t : τ} {queue done' : List τ}
    (hqueue : p.queue = t :: queue) (hdone : done'.Perm (t :: done)) :
    Account ⟨queue, p.hands⟩ history done' where
  queue_suffix := (List.suffix_cons t queue).trans (hqueue ▸ h.queue_suffix)
  perm := by
    have hperm := h.perm
    rw [outstanding, hqueue] at hperm
    refine ((hdone.append_right _).trans ?_).trans hperm
    show (t :: (done ++ (p.held ++ queue))).Perm (done ++ (p.held ++ t :: queue))
    rw [← List.append_assoc, ← List.append_assoc]
    exact List.perm_middle.symm

/-- **What keeps a prefix a prefix.** Of tasks in order, the first ones are done and the others
pending. With one of the pending tasks the first ones are done still, exactly if it is the
earliest. -/
theorem append_singleton_prefix_iff {done pending history : List τ} {num : τ → ℕ}
    (hsorted : history.Pairwise fun t t' => num t < num t') (hdone : done <+: history)
    (hperm : (done ++ pending).Perm history) {t : τ} (ht : t ∈ pending) :
    done ++ [t] <+: history ↔ ∀ t' ∈ pending, num t ≤ num t' := by
  obtain ⟨later, rfl⟩ := hdone
  have hlater : pending.Perm later := (List.perm_append_left_iff done).mp hperm
  have hpair : later.Pairwise fun t t' => num t < num t' := (List.pairwise_append.mp hsorted).2.1
  cases later with
  | nil => exact absurd (hlater.mem_iff.mp ht) List.not_mem_nil
  | cons first later =>
    have hle : ∀ t' ∈ pending, num first ≤ num t' := by
      intro t' ht'
      rcases List.mem_cons.mp (hlater.mem_iff.mp ht') with rfl | hmem
      · exact Nat.le_refl _
      · exact Nat.le_of_lt (List.rel_of_pairwise_cons hpair hmem)
    rw [List.prefix_append_right_inj, List.cons_prefix_cons]
    constructor
    · rintro ⟨rfl, -⟩
      exact hle
    · intro hturn
      refine ⟨?_, List.nil_prefix⟩
      rcases List.mem_cons.mp (hlater.mem_iff.mp ht) with he | hmem
      · exact he
      · have hlt := List.rel_of_pairwise_cons hpair hmem
        have hge := hturn first (hlater.mem_iff.mpr List.mem_cons_self)
        omega

/-- **Finished in turn, finished in order.** If the tasks that are finished are the first
ones that were put in, they still are when a worker finishes one that it holds, exactly if
that is the earliest of those that are held. -/
theorem Account.finish_prefix_iff (h : Account p history done) {num : τ → ℕ}
    (hnum : history.Pairwise fun t t' => num t < num t') (hdone : done <+: history) {t : τ}
    (ht : t ∈ p.held) : done ++ [t] <+: history ↔ ∀ t' ∈ p.held, num t ≤ num t' := by
  obtain ⟨taken, htaken⟩ := h.queue_suffix
  have hperm : (done ++ p.held).Perm taken := by
    have hall := h.perm
    rw [outstanding, ← List.append_assoc, ← htaken] at hall
    exact (List.perm_append_right_iff p.queue).mp hall
  -- what was taken is what is finished and what is held
  have hprefix : done <+: taken := by
    refine List.prefix_of_prefix_length_le hdone ⟨p.queue, htaken⟩ ?_
    rw [← hperm.length_eq, List.length_append]
    exact Nat.le_add_right _ _
  have hsorted : taken.Pairwise fun t t' => num t < num t' := by
    rw [← htaken] at hnum
    exact (List.pairwise_append.mp hnum).1
  have hone : done ++ [t] <+: history ↔ done ++ [t] <+: taken := by
    have hlen : (done ++ [t]).length ≤ taken.length := by
      have hpos := List.length_pos_of_mem ht
      rw [← hperm.length_eq, List.length_append, List.length_append]
      exact Nat.add_le_add_left hpos _
    exact ⟨fun hd => List.prefix_of_prefix_length_le hd ⟨p.queue, htaken⟩ hlen,
      fun hd => hd.trans ⟨p.queue, htaken⟩⟩
  rw [hone]
  exact append_singleton_prefix_iff hsorted hprefix hperm ht

/-- The workers stay the same. -/
theorem Step.length_hands {m : Move τ} (h : Step p m p') : p'.hands.length = p.hands.length := by
  cases h with
  | rest => rfl
  | put => rfl
  | take => exact List.length_set
  | finish => exact List.length_set

/-- A pool with one worker has one task in its hands. -/
theorem eq_of_mem_held (h : p.hands.length = 1) {t t' : τ} (ht : t ∈ p.held) (ht' : t' ∈ p.held) :
    t = t' := by
  obtain ⟨hand, hhand⟩ := List.length_eq_one_iff.mp h
  rw [held, hhand, reduceOption_cons] at ht ht'
  cases hand with
  | none => cases ht
  | some t₀ => exact (List.mem_singleton.mp ht).trans (List.mem_singleton.mp ht').symm

/-! ## The ledger of a run -/

/-- **The ledger of what happened to the tasks** between two states of a pool: those that were
put in, taken and finished, each in its order. -/
structure Ledger (p p' : WorkPool τ) (submitted taken finished : List τ) : Prop where
  /-- They are taken in the order in which they came. -/
  queue_eq : taken ++ p'.queue = p.queue ++ submitted
  /-- Each that was taken is finished once, or it is still held. -/
  perm : (finished ++ p'.held).Perm (p.held ++ taken)

namespace Ledger

variable {p p' p'' : WorkPool τ} {submitted taken finished : List τ}

theorem refl (p : WorkPool τ) : Ledger p p [] [] [] where
  queue_eq := by rw [List.nil_append, List.append_nil]
  perm := by rw [List.nil_append, List.append_nil]

theorem put (h : Ledger p p' submitted taken finished) {t : τ} (hs : Step p' (.put t) p'') :
    Ledger p p'' (submitted ++ [t]) taken finished := by
  cases hs
  exact ⟨by rw [← List.append_assoc, h.queue_eq, List.append_assoc], h.perm⟩

theorem take (h : Ledger p p' submitted taken finished) {i : ℕ} (hs : Step p' (.take i) p'')
    {t : τ} (ht : p'.queue.head? = some t) :
    Ledger p p'' submitted (taken ++ [t]) finished := by
  cases hs with
  | take hi =>
    cases ht
    refine ⟨by rw [List.append_assoc]; exact h.queue_eq, ?_⟩
    rw [← List.append_assoc]
    refine List.Perm.trans ?_ (h.perm.append_right [t])
    rw [List.append_assoc]
    exact ((reduceOption_set_some t hi).trans (List.perm_append_singleton _ _).symm).append_left _

theorem finish (h : Ledger p p' submitted taken finished) {i : ℕ} {t : τ}
    (hs : Step p' (.finish i t) p'') : Ledger p p'' submitted taken (finished ++ [t]) := by
  cases hs with
  | finish hi =>
    refine ⟨h.queue_eq, List.Perm.trans ?_ h.perm⟩
    rw [List.append_assoc]
    exact List.Perm.append_left finished (reduceOption_set_none hi).symm

end Ledger

end WorkPool
