import Mathlib.Algebra.Order.Ring.Nat
import Mathlib.Data.Multiset.AddSub
import Mathlib.Order.Interval.Finset.Nat

/-!
# Blocks of a heap

Two facts about whoever gets blocks of memory from a heap and gives them back. Blocks that do not
overlap take together at most the room they lie in (`sum_le_of_apart`). And a trace of what was
got and given back is balanced (`Balanced`) if what is given back is always something that was
got and is still out.
-/

namespace HeapTrace

/-! ## Blocks that do not overlap -/

/-- Two blocks, each with its start and its length, do not overlap. -/
def Apart (b c : ℕ × ℕ) : Prop := b.1 + b.2 ≤ c.1 ∨ c.1 + c.2 ≤ b.1

/-- The numbers that blocks cover. -/
theorem exists_covered {blocks : List (ℕ × ℕ)} (h : blocks.Pairwise Apart) :
    ∃ covered : Finset ℕ, covered.card = (blocks.map Prod.snd).sum
      ∧ ∀ n ∈ covered, ∃ b ∈ blocks, b.1 ≤ n ∧ n < b.1 + b.2 := by
  induction blocks with
  | nil => exact ⟨∅, rfl, fun n hn => by cases hn⟩
  | cons b blocks ih =>
    obtain ⟨hb, hblocks⟩ := List.pairwise_cons.mp h
    obtain ⟨covered, hcard, hin⟩ := ih hblocks
    have hdisjoint : Disjoint (Finset.Ico b.1 (b.1 + b.2)) covered := by
      refine Finset.disjoint_left.mpr fun n hn hcovered => ?_
      obtain ⟨hle, hlt⟩ := Finset.mem_Ico.mp hn
      obtain ⟨c, hc, hcle, hclt⟩ := hin n hcovered
      rcases hb c hc with hbefore | hbehind <;> omega
    refine ⟨Finset.Ico b.1 (b.1 + b.2) ∪ covered, ?_, fun n hn => ?_⟩
    · rw [Finset.card_union_of_disjoint hdisjoint, hcard, Nat.card_Ico, List.map_cons,
        List.sum_cons, Nat.add_sub_cancel_left]
    · rcases Finset.mem_union.mp hn with hn | hn
      · exact ⟨b, List.mem_cons_self, Finset.mem_Ico.mp hn⟩
      · obtain ⟨c, hc, hcn⟩ := hin n hn
        exact ⟨c, List.mem_cons_of_mem _ hc, hcn⟩

/-- **Blocks that do not overlap take no more than the room they lie in.** -/
theorem sum_le_of_apart {blocks : List (ℕ × ℕ)} (h : blocks.Pairwise Apart) {lo hi : ℕ}
    (hin : ∀ b ∈ blocks, lo ≤ b.1 ∧ b.1 + b.2 ≤ hi) :
    (blocks.map Prod.snd).sum ≤ hi - lo := by
  obtain ⟨covered, hcard, hcovered⟩ := exists_covered h
  rw [← hcard, ← Nat.card_Ico]
  refine Finset.card_le_card fun n hn => ?_
  obtain ⟨b, hb, hle, hlt⟩ := hcovered n hn
  obtain ⟨hlo, hhi⟩ := hin b hb
  exact Finset.mem_Ico.mpr ⟨by omega, by omega⟩

/-! ## What is got and given back -/

/-- What the heap is asked for. -/
inductive HeapEvent (α : Type*)
  /-- It has returned a block at this address. -/
  | new (a : α)
  /-- A block at this address is given back. -/
  | delete (a : α)
  deriving DecidableEq

variable {α : Type*} [DecidableEq α]

/-- What is out after an event. -/
def after (out : Multiset α) : HeapEvent α → Multiset α
  | .new a => a ::ₘ out
  | .delete a => out.erase a

/-- **What is given back is out**, and is out no longer then. -/
def Balanced : Multiset α → List (HeapEvent α) → Prop
  | _, [] => True
  | out, e :: events => (∀ a, e = .delete a → a ∈ out) ∧ Balanced (after out e) events

/-- A trace in two parts. -/
theorem balanced_append {out : Multiset α} {events events' : List (HeapEvent α)} :
    Balanced out (events ++ events')
      ↔ Balanced out events ∧ Balanced (events.foldl after out) events' := by
  induction events generalizing out with
  | nil => exact (and_iff_right trivial).symm
  | cons e events ih =>
    rw [List.cons_append, Balanced, Balanced, ih, List.foldl_cons, and_assoc]

/-- Blocks can always be got, and then they are out. -/
theorem balanced_map_new (out : Multiset α) (addresses : List α) :
    Balanced out (addresses.map .new)
      ∧ (addresses.map .new).foldl after out = ↑addresses + out := by
  induction addresses generalizing out with
  | nil => exact ⟨trivial, (zero_add out).symm⟩
  | cons a addresses ih =>
    obtain ⟨hbalanced, hout⟩ := ih (a ::ₘ out)
    refine ⟨⟨fun b hb => (by cases hb), hbalanced⟩, ?_⟩
    rw [List.map_cons, List.foldl_cons, ← Multiset.cons_coe, Multiset.cons_add,
      ← Multiset.add_cons]
    exact hout

/-- **Blocks that are out can be given back**, and the others stay out. -/
theorem balanced_map_delete {out : Multiset α} {addresses : List α}
    {rest : Multiset α} (h : ↑addresses + rest ≤ out) :
    Balanced out (addresses.map .delete)
      ∧ rest ≤ (addresses.map .delete).foldl after out := by
  induction addresses generalizing out with
  | nil => exact ⟨trivial, by simpa using h⟩
  | cons a addresses ih =>
    rw [← Multiset.cons_coe, Multiset.cons_add] at h
    have hrest : ↑addresses + rest ≤ out.erase a := by
      have herase := Multiset.erase_le_erase a h
      rwa [Multiset.erase_cons_head] at herase
    obtain ⟨hbalanced, hout⟩ := ih hrest
    refine ⟨⟨fun b hb => ?_, hbalanced⟩, hout⟩
    cases hb
    exact Multiset.mem_of_le h (Multiset.mem_cons_self a _)

/-- What is not out cannot be given back. -/
theorem not_balanced_map_delete {out : Multiset α} {addresses : List α} {a : α}
    (ha : a ∈ addresses) (hout : a ∉ out) : ¬ Balanced out (addresses.map .delete) := by
  induction addresses generalizing out with
  | nil => cases ha
  | cons b addresses ih =>
    rintro ⟨hb, hrest⟩
    rcases List.mem_cons.mp ha with rfl | ha
    · exact hout (hb _ rfl)
    · exact ih ha (fun hin => hout (Multiset.mem_of_mem_erase hin)) hrest

end HeapTrace
