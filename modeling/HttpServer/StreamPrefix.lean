import HttpServer.Consumer
import Mathlib.Data.List.Infix

/-!
# Streams that have come in part

What a receiver has of a stream is the beginning of it. If the stream is made of items that the
decoder finds wherever they stand, one behind the other, then the receiver has the first of the
items, as many as have come whole, and waits with the beginning of the next one
(`drain_of_prefix`). That it does wait, and takes no part of an item for another item, follows from
the laws of a decoder alone: what it found in the part it would find in the whole.
-/

namespace Consumer

variable {α β ι ε σ : Type*} {D : Decoder β ι ε} {receive : ι → σ → Verdict ε × σ}
  {enc : α → List β} {item : α → ι}

/-- What `a` is written as is found in front of anything, as the item that belongs to `a`. -/
def Encodes (D : Decoder β ι ε) (enc : α → List β) (item : α → ι) (a : α) : Prop :=
  ∀ rest, D.next (enc a ++ rest) = .item (item a) rest

/-- **A part of an item is no item.** -/
theorem Encodes.next_of_prefix {a : α} (h : Encodes D enc item a) {p : List β} (hp : p <+: enc a)
    (hne : p ≠ enc a) : D.next p = .more := by
  obtain ⟨t, ht⟩ := hp
  have hwhole : D.next (p ++ t) = .item (item a) [] := by
    have hself := h []
    rwa [List.append_nil, ← ht] at hself
  cases hnext : D.next p with
  | more => rfl
  | item b rest =>
    rw [D.item_append hnext t] at hwhole
    obtain ⟨-, hnil⟩ := Attempt.item.inj hwhole
    rw [(List.append_eq_nil_iff.mp hnil).2, List.append_nil] at ht
    exact absurd ht hne
  | fail e =>
    rw [D.fail_append hnext t] at hwhole
    cases hwhole

/-- **What has come of a stream of items.** -/
structure Came (enc : α → List β) (items : List α) (p : List β) (k : ℕ) (rest : List β) :
    Prop where
  le_length : k ≤ items.length
  eq_append : p = ((items.take k).map enc).flatten ++ rest
  rest_prefix : rest <+: ((items.drop k).map enc).flatten
  /-- The next item has not come whole. -/
  next_ne : ∀ a ∈ (items.drop k).head?, ¬ enc a <+: rest

/-- The first item has come, and of the others what is left. -/
theorem Came.cons {items : List α} {p : List β} {k : ℕ} {rest : List β}
    (h : Came enc items p k rest) (a : α) : Came enc (a :: items) (enc a ++ p) (k + 1) rest where
  le_length := Nat.succ_le_succ h.le_length
  eq_append := by
    rw [List.take_succ_cons, List.map_cons, List.flatten_cons, List.append_assoc, ← h.eq_append]
  rest_prefix := h.rest_prefix
  next_ne := h.next_ne

/-- Where all has come, nothing is left. -/
theorem Came.eq_length {items : List α} {k : ℕ} {rest : List β}
    (h : Came enc items (items.map enc).flatten k rest) :
    k = items.length ∧ rest = [] := by
  have hsplit : (items.map enc).flatten
      = ((items.take k).map enc).flatten ++ ((items.drop k).map enc).flatten := by
    rw [← List.flatten_append, ← List.map_append, List.take_append_drop]
  have hrest : rest = ((items.drop k).map enc).flatten :=
    List.append_cancel_left (h.eq_append.symm.trans hsplit)
  cases hdrop : items.drop k with
  | nil =>
    rw [hdrop] at hrest
    exact ⟨Nat.le_antisymm h.le_length (List.drop_eq_nil_iff.mp hdrop), hrest⟩
  | cons a later =>
    refine absurd ?_ (h.next_ne a (by rw [hdrop]; rfl))
    rw [hrest, hdrop, List.map_cons, List.flatten_cons]
    exact List.prefix_append _ _

variable (D receive item) in
/-- **The receiver has the items that have come whole**, and waits for the rest, if it goes on
behind every item. -/
theorem drain_of_prefix {items : List α} (hgo : ∀ a ∈ items, ∀ w, (receive (item a) w).1 = .goOn)
    (henc : ∀ a ∈ items, Encodes D enc item a) {p : List β} (hp : p <+: (items.map enc).flatten)
    (w : σ) :
    ∃ k rest, Came enc items p k rest
      ∧ drain D receive p w = ⟨(items.take k).map item, .waiting rest,
        (items.take k).foldl (fun w a => (receive (item a) w).2) w⟩ := by
  induction items generalizing p w with
  | nil =>
    rw [List.map_nil, List.flatten_nil, List.prefix_nil] at hp
    subst hp
    refine ⟨0, [], ⟨Nat.le_refl 0, rfl, List.prefix_rfl, fun a ha => ?_⟩, drain_nil w⟩
    cases ha
  | cons a items ih =>
    have ha := henc a List.mem_cons_self
    have hfirst : enc a <+: ((a :: items).map enc).flatten := by
      rw [List.map_cons, List.flatten_cons]
      exact List.prefix_append _ _
    by_cases hwhole : enc a <+: p
    · -- the item has come
      obtain ⟨p, rfl⟩ := hwhole
      rw [List.map_cons, List.flatten_cons, List.prefix_append_right_inj] at hp
      have hreceive : receive (item a) w = (.goOn, (receive (item a) w).2) :=
        Prod.ext (hgo a List.mem_cons_self w) rfl
      obtain ⟨k, rest, hcame, hdrain⟩ := ih (fun b hb => hgo b (List.mem_cons_of_mem a hb))
        (fun b hb => henc b (List.mem_cons_of_mem a hb)) hp (receive (item a) w).2
      refine ⟨k + 1, rest, hcame.cons a, ?_⟩
      rw [drain_item (ha p), hreceive]
      dsimp only
      rw [hdrain]
      rfl
    · have hpart : p <+: enc a := (List.prefix_or_prefix_of_prefix hp hfirst).resolve_right hwhole
      have hne : p ≠ enc a := fun heq => hwhole (heq ▸ List.prefix_rfl)
      refine ⟨0, p, ⟨Nat.zero_le _, rfl, hp, fun b hb => ?_⟩,
        drain_more (ha.next_of_prefix hpart hne)⟩
      cases hb
      exact hwhole

end Consumer
