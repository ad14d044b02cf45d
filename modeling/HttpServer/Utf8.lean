import Mathlib.Data.Nat.Notation
import Mathlib.Data.Option.Basic

/-!
# UTF-8

Whether a byte string is UTF-8, decided by a machine that reads one byte after the other. An ASCII
byte can only be read between two characters, so a text with ASCII bytes in it is UTF-8 exactly if
the pieces between them are (`isValid_append_cons`).
-/

namespace Utf8

/-- **What the bytes read so far leave to be read**: nothing, or the rest of a character. -/
inductive State
  /-- Nothing: the machine is between two characters. -/
  | start
  /-- One byte that continues a character. -/
  | one
  /-- Two of them. -/
  | two
  /-- Three of them. -/
  | three
  /-- Two of them behind `E0`, where the shorter encodings are left out. -/
  | afterE0
  /-- Two of them behind `ED`, where the surrogates are left out. -/
  | afterED
  /-- Three of them behind `F0`, where the shorter encodings are left out. -/
  | afterF0
  /-- Three of them behind `F4`, up to the last code point. -/
  | afterF4
  deriving DecidableEq

/-- The state behind the first byte of a character. -/
def first (c : UInt8) : Option State :=
  if c < 0x80 then some .start
  else if 0xC2 ≤ c ∧ c ≤ 0xDF then some .one
  else if c = 0xE0 then some .afterE0
  else if c = 0xED then some .afterED
  else if 0xE1 ≤ c ∧ c ≤ 0xEF then some .two
  else if c = 0xF0 then some .afterF0
  else if 0xF1 ≤ c ∧ c ≤ 0xF3 then some .three
  else if c = 0xF4 then some .afterF4
  else none

/-- A byte within these bounds leads to a state. -/
def within (low high c : UInt8) (next : State) : Option State :=
  if low ≤ c ∧ c ≤ high then some next else none

def step (c : UInt8) : State → Option State
  | .start => first c
  | .one => within 0x80 0xBF c .start
  | .two => within 0x80 0xBF c .one
  | .three => within 0x80 0xBF c .two
  | .afterE0 => within 0xA0 0xBF c .one
  | .afterED => within 0x80 0x9F c .one
  | .afterF0 => within 0x90 0xBF c .two
  | .afterF4 => within 0x80 0x8F c .two

/-- The state behind a string, unless a byte could not be read. -/
def run : List UInt8 → State → Option State
  | [], q => some q
  | c :: s, q => (step c q).bind (run s)

/-- **A byte string is UTF-8.** -/
def isValid (s : List UInt8) : Bool := run s .start == some .start

variable {c : UInt8} {s t : List UInt8}

theorem run_append (s t : List UInt8) (q : State) :
    run (s ++ t) q = (run s q).bind (run t) := by
  induction s generalizing q with
  | nil => rfl
  | cons c s ih =>
    rw [List.cons_append, run, run, Option.bind_assoc]
    exact Option.bind_congr fun q' _ => ih q'

/-- **An ASCII byte is read between two characters**, and nowhere else. -/
theorem step_ascii (hc : c < 0x80) (q : State) :
    step c q = if q = .start then some .start else none := by
  have hwithin : ∀ low high next, 0x80 ≤ low → within low high c next = none := by
    intro low high next hlow
    refine if_neg fun h => ?_
    exact absurd (UInt8.le_trans hlow h.1) (UInt8.not_le.mpr hc)
  cases q with
  | start =>
    rw [if_pos rfl]
    exact if_pos hc
  | _ =>
    rw [if_neg nofun]
    exact hwithin _ _ _ (by decide)

/-- **A text with an ASCII byte in it** is UTF-8 exactly if both sides are. -/
theorem isValid_append_cons (hc : c < 0x80) (s t : List UInt8) :
    isValid (s ++ c :: t) = true ↔ isValid s = true ∧ isValid t = true := by
  unfold isValid
  rw [run_append, beq_iff_eq, beq_iff_eq, beq_iff_eq]
  cases hs : run s .start with
  | none => exact iff_of_false nofun fun h => by cases h.1
  | some q =>
    rw [Option.bind_some, run, step_ascii hc]
    by_cases hq : q = .start
    · subst hq
      rw [if_pos rfl, Option.bind_some]
      exact ⟨fun h => ⟨rfl, h⟩, fun h => h.2⟩
    · rw [if_neg hq, Option.bind_none]
      exact iff_of_false nofun fun h => hq (Option.some.inj h.1)

/-- An ASCII byte in front makes no difference. -/
theorem isValid_ascii_cons (hc : c < 0x80) (t : List UInt8) : isValid (c :: t) = isValid t := by
  rw [Bool.eq_iff_iff]
  exact (isValid_append_cons hc [] t).trans (and_iff_right rfl)

/-- Nor does a text of them. -/
theorem isValid_ascii_append (hs : ∀ c ∈ s, c < 0x80) (t : List UInt8) :
    isValid (s ++ t) = isValid t := by
  induction s with
  | nil => rfl
  | cons c s ih =>
    obtain ⟨hc, hs⟩ := List.forall_mem_cons.mp hs
    rw [List.cons_append, isValid_ascii_cons hc, ih hs]

end Utf8
