import Mathlib.Data.Nat.Notation
import Mathlib.Tactic.TypeStar

/-!
# An unbounded FIFO queue, seen from its history

The purpose of a byte buffer, stated without a representation: what was
written, in order, and how much of the front has been consumed. The contents
are the rest. A queue is therefore never asked *what* it holds but *when*:
writing extends the history and leaves the mark, consuming moves the mark and
leaves the history, and nothing is lost, duplicated, reordered or invented
because there is nowhere else for an element to come from.
-/

/-- **A FIFO queue as its history.** -/
structure Fifo (α : Type*) where
  /-- Everything written so far, in writing order. -/
  written : List α
  /-- How many of the written elements have been consumed. -/
  consumed : ℕ
  /-- Only what has been written is consumed. -/
  consumed_le : consumed ≤ written.length

namespace Fifo

variable {α : Type*} (q : Fifo α)

/-- The queue nothing has been written to. -/
def empty : Fifo α := ⟨[], 0, Nat.le_refl 0⟩

/-- What is written and not yet consumed. -/
def contents : List α := q.written.drop q.consumed

/-- Write `l` behind what is there. -/
def push (l : List α) : Fifo α :=
  ⟨q.written ++ l, q.consumed, by
    rw [List.length_append]
    exact Nat.le_add_right_of_le q.consumed_le⟩

/-- Consume the next `n` elements, or all of them if there are fewer. -/
def pop (n : ℕ) : Fifo α :=
  ⟨q.written, min (q.consumed + n) q.written.length, Nat.min_le_right _ _⟩

@[simp] theorem contents_empty : (empty : Fifo α).contents = [] := rfl

@[simp] theorem contents_push (l : List α) : (q.push l).contents = q.contents ++ l :=
  List.drop_append_of_le_length q.consumed_le

@[simp] theorem contents_pop (n : ℕ) : (q.pop n).contents = q.contents.drop n := by
  show q.written.drop (min (q.consumed + n) q.written.length) = (q.written.drop q.consumed).drop n
  rw [List.drop_drop]
  rcases Nat.le_total (q.consumed + n) q.written.length with h | h
  · rw [Nat.min_eq_left h]
  · rw [Nat.min_eq_right h, List.drop_length, List.drop_eq_nil_of_le h]

end Fifo

/-! ## With a limit -/

/-- **A FIFO queue that takes in no more than a limit.** The limit can be moved below what
is there already; then nothing is lost, and nothing taken in until there is room. -/
structure BoundedFifo (α : Type*) where
  /-- What is in the queue. -/
  queue : Fifo α
  /-- How many elements it may hold when something is written. -/
  limit : ℕ

namespace BoundedFifo

variable {α : Type*} (q : BoundedFifo α)

/-- What is written and not yet consumed. -/
def contents : List α := q.queue.contents

/-- There is room for `l`. -/
def Fits (l : List α) : Prop := q.contents.length + l.length ≤ q.limit

/-- Write `l` behind what is there. -/
def push (l : List α) : BoundedFifo α := { q with queue := q.queue.push l }

/-- Consume the next `n` elements, or all of them if there are fewer. -/
def pop (n : ℕ) : BoundedFifo α := { q with queue := q.queue.pop n }

/-- Forget what is there. -/
def clear : BoundedFifo α := { q with queue := .empty }

@[simp] theorem contents_push (l : List α) : (q.push l).contents = q.contents ++ l :=
  q.queue.contents_push l

@[simp] theorem contents_pop (n : ℕ) : (q.pop n).contents = q.contents.drop n :=
  q.queue.contents_pop n

@[simp] theorem contents_clear : q.clear.contents = [] := Fifo.contents_empty

end BoundedFifo
