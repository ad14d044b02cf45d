import Mathlib.Data.Finset.Basic
import Mathlib.Data.Multiset.Bind

/-!
# Shared ownership

Objects that have counted pointers to each other, next to the pointers that are outside of all
objects: on a stack, in a thread, in a queue. An object is destroyed when its count comes to
zero, and its own pointers go with it.

A counted pointer never dangles. It may keep its object for ever, though: objects that point to
each other in a circle are counted by each other, and no pointer from outside is needed for them
to stay (`Ownership.KeepsItself`).
-/

/-- **Objects and who points to them**: the ones that are alive, the pointers that each of them
has, and those outside of all. -/
structure Ownership (ι : Type*) where
  alive : Finset ι
  pointers : ι → Multiset ι
  held : Multiset ι

namespace Ownership

variable {ι : Type*} [DecidableEq ι] {o o' : Ownership ι} {x : ι} {c : Set ι}

/-- `use_count()`: the pointers to an object that there are. -/
def useCount (o : Ownership ι) (x : ι) : ℕ :=
  o.held.count x + (o.alive.val.bind o.pointers).count x

theorem useCount_ne_zero_iff :
    o.useCount x ≠ 0 ↔ x ∈ o.held ∨ ∃ y ∈ o.alive, x ∈ o.pointers y := by
  have hzero : o.useCount x = 0 ↔ x ∉ o.held ∧ ¬ ∃ y ∈ o.alive, x ∈ o.pointers y := by
    rw [useCount, Nat.add_eq_zero_iff, Multiset.count_eq_zero, Multiset.count_eq_zero,
      Multiset.mem_bind]
    exact Iff.rfl
  rw [Ne, hzero, not_and_or, not_not, not_not]

/-- **No pointer dangles**: what is counted is alive. -/
def Sound (o : Ownership ι) : Prop := ∀ x, o.useCount x ≠ 0 → x ∈ o.alive

/-- **Nothing is left to destroy.** -/
def Settled (o : Ownership ι) : Prop := ∀ x ∈ o.alive, o.useCount x ≠ 0

instance (o : Ownership ι) : Decidable o.Settled :=
  inferInstanceAs (Decidable (∀ x ∈ o.alive, o.useCount x ≠ 0))

/-- **Objects that keep each other**: all are alive, and each of them is pointed to by one of
them. -/
structure KeepsItself (o : Ownership ι) (c : Set ι) : Prop where
  alive : ∀ x ∈ c, x ∈ o.alive
  owned : ∀ x ∈ c, ∃ y ∈ c, x ∈ o.pointers y

theorem Sound.of_held (h : o.Sound) (hx : x ∈ o.held) : x ∈ o.alive :=
  h x (useCount_ne_zero_iff.mpr (.inl hx))

theorem Sound.of_pointers (h : o.Sound) {y : ι} (hy : y ∈ o.alive) (hx : x ∈ o.pointers y) :
    x ∈ o.alive :=
  h x (useCount_ne_zero_iff.mpr (.inr ⟨y, hy, hx⟩))

theorem KeepsItself.useCount_ne_zero (h : o.KeepsItself c) (hx : x ∈ c) : o.useCount x ≠ 0 := by
  obtain ⟨y, hy, howned⟩ := h.owned x hx
  exact useCount_ne_zero_iff.mpr (.inr ⟨y, h.alive y hy, howned⟩)

/-- **What keeps itself is never destroyed**: whatever is done to other pointers, and whichever
objects are destroyed. -/
theorem KeepsItself.mono (h : o.KeepsItself c)
    (hpointers : ∀ y ∈ c, ∀ x, x ∈ o.pointers y → x ∈ o'.pointers y)
    (hdestroyed : ∀ x ∈ o.alive, x ∉ o'.alive → o.useCount x = 0) : o'.KeepsItself c where
  alive x hx := by
    by_contra hgone
    exact h.useCount_ne_zero hx (hdestroyed x (h.alive x hx) hgone)
  owned x hx := by
    obtain ⟨y, hy, howned⟩ := h.owned x hx
    exact ⟨y, hy, hpointers y hy x howned⟩

/-- **No pointer comes to dangle** where new pointers are to what is alive, and only what is not
counted any more is destroyed. -/
theorem Sound.mono (h : o.Sound)
    (hheld : ∀ x ∈ o'.held, x ∈ o.held ∨ x ∈ o'.alive)
    (hpointers : ∀ y ∈ o'.alive, ∀ x ∈ o'.pointers y,
      y ∈ o.alive ∧ x ∈ o.pointers y ∨ x ∈ o'.alive)
    (hdestroyed : ∀ x ∈ o.alive, x ∉ o'.alive → o.useCount x = 0) : o'.Sound := by
  -- what was counted before is not destroyed
  have hkept : ∀ x, o.useCount x ≠ 0 → x ∈ o'.alive := by
    intro x hcount
    by_contra hgone
    exact hcount (hdestroyed x (h x hcount) hgone)
  intro x hcount
  obtain hx | ⟨y, hy, hx⟩ := useCount_ne_zero_iff.mp hcount
  · obtain hbefore | hnew := hheld x hx
    · exact hkept x (useCount_ne_zero_iff.mpr (.inl hbefore))
    · exact hnew
  · obtain ⟨hbefore, hpointer⟩ | hnew := hpointers y hy x hx
    · exact hkept x (useCount_ne_zero_iff.mpr (.inr ⟨y, hbefore, hpointer⟩))
    · exact hnew

end Ownership
