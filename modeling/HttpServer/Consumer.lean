import Mathlib.Data.Nat.Notation
import Mathlib.Tactic.TypeStar

/-!
# Consuming a stream that arrives in chunks

A receiver keeps what it has received in a buffer and takes items off its front as
long as it can: `Consumer.drain`. After each chunk it drains the buffer with the
chunk behind it: `Consumer.feed`. What it does should depend on the stream and not on
how the stream was cut, and the reason that it does is a property of one attempt to
take an item. A `Decoder` carries it as its laws: an item that was found, and a
failure, stay what they are when more is appended to the buffer. Then
`feedAll_eq_drain` says that feeding the chunks is draining their concatenation.

A caller may look at the receiver's state between two chunks, and feed no more once it has
halted: `Consumer.feedUntil`. Then the cuts decide how much is fed behind the item that
halted it, and they make no difference exactly if nothing comes of that
(`feedUntil_agree_iff`).
-/

namespace Consumer

variable {α β ι ε σ : Type*}

/-- What an attempt to take an item off a buffer comes to. -/
inductive Attempt (β ι ε : Type*)
  /-- The buffer holds no complete item. -/
  | more
  /-- An item, and what is left of the buffer. -/
  | item (a : ι) (rest : List β)
  /-- The attempt failed for good. -/
  | fail (e : ε)

/-- **A decoder**: attempts whose success and failure do not depend on what follows. -/
structure Decoder (β ι ε : Type*) where
  next : List β → Attempt β ι ε
  next_nil : next [] = .more
  length_lt : ∀ {s a rest}, next s = .item a rest → rest.length < s.length
  item_append : ∀ {s a rest}, next s = .item a rest → ∀ t, next (s ++ t) = .item a (rest ++ t)
  fail_append : ∀ {s e}, next s = .fail e → ∀ t, next (s ++ t) = .fail e

/-- What the receiver of an item decides. -/
inductive Verdict (ε : Type*)
  | goOn
  | stop
  | abort (e : ε)

/-- How a run of the receiver ended: it waits with a rest in its buffer, it stopped,
or something failed. -/
inductive Outcome (β ε : Type*)
  | waiting (rest : List β)
  | stopped
  | failed (e : ε)

/-- The items that were received, in order, how it ended, and the state. -/
structure Run (β ι ε σ : Type*) where
  items : List ι
  outcome : Outcome β ε
  state : σ

variable (D : Decoder β ι ε) (receive : ι → σ → Verdict ε × σ)

/-- Take items off the buffer as long as that is possible and wanted. -/
def drain (s : List β) (w : σ) : Run β ι ε σ :=
  match h : D.next s with
  | .more => ⟨[], .waiting s, w⟩
  | .fail e => ⟨[], .failed e, w⟩
  | .item a rest =>
    match receive a w with
    | (.goOn, w') =>
      have : rest.length < s.length := D.length_lt h
      let r := drain rest w'
      ⟨a :: r.items, r.outcome, r.state⟩
    | (.stop, w') => ⟨[a], .stopped, w'⟩
    | (.abort e, w') => ⟨[a], .failed e, w'⟩
termination_by s.length

/-- One more chunk, for a receiver that is still waiting. -/
def feed (r : Run β ι ε σ) (chunk : List β) : Run β ι ε σ :=
  match r.outcome with
  | .waiting rest =>
    let r' := drain D receive (rest ++ chunk) r.state
    ⟨r.items ++ r'.items, r'.outcome, r'.state⟩
  | _ => r

/-- All chunks, from an empty buffer. -/
def feedAll (chunks : List (List β)) (w : σ) : Run β ι ε σ :=
  chunks.foldl (feed D receive) ⟨[], .waiting [], w⟩

variable {D receive} {s : List β} {w w' : σ} {a : ι} {rest : List β} {e : ε}

/-- One attempt, and what follows from it. -/
theorem drain_eq (s : List β) (w : σ) :
    drain D receive s w = match D.next s with
      | .more => ⟨[], .waiting s, w⟩
      | .fail e => ⟨[], .failed e, w⟩
      | .item a rest =>
        match receive a w with
        | (.goOn, w') =>
          ⟨a :: (drain D receive rest w').items, (drain D receive rest w').outcome,
            (drain D receive rest w').state⟩
        | (.stop, w') => ⟨[a], .stopped, w'⟩
        | (.abort e, w') => ⟨[a], .failed e, w'⟩ := by
  rw [drain]
  split <;> rename_i hnext <;> simp only [hnext]

theorem drain_more (h : D.next s = .more) : drain D receive s w = ⟨[], .waiting s, w⟩ := by
  rw [drain_eq, h]

theorem drain_fail (h : D.next s = .fail e) : drain D receive s w = ⟨[], .failed e, w⟩ := by
  rw [drain_eq, h]

/-- Taking one item. -/
theorem drain_item (h : D.next s = .item a rest) :
    drain D receive s w = match receive a w with
      | (.goOn, w') =>
        ⟨a :: (drain D receive rest w').items, (drain D receive rest w').outcome,
          (drain D receive rest w').state⟩
      | (.stop, w') => ⟨[a], .stopped, w'⟩
      | (.abort e, w') => ⟨[a], .failed e, w'⟩ := by
  rw [drain_eq, h]

@[simp] theorem drain_nil (w : σ) : drain D receive [] w = ⟨[], .waiting [], w⟩ :=
  drain_more D.next_nil

/-- **Draining in two steps.** -/
theorem feed_drain (s t : List β) (w : σ) :
    feed D receive (drain D receive s w) t = drain D receive (s ++ t) w := by
  induction hn : s.length using Nat.strongRecOn generalizing s w with
  | _ n ih =>
    cases hnext : D.next s with
    | more =>
      rw [drain_more hnext]
      rfl
    | fail e =>
      rw [drain_fail hnext, drain_fail (D.fail_append hnext t)]
      rfl
    | item a rest =>
      rw [drain_item hnext, drain_item (D.item_append hnext t)]
      rcases receive a w with ⟨v, w'⟩
      cases v with
      | goOn =>
        have hrec := ih rest.length (hn ▸ D.length_lt hnext) rest w' rfl
        simp only [← hrec]
        obtain ⟨items, outcome, state⟩ := drain D receive rest w'
        cases outcome <;> rfl
      | stop => rfl
      | abort e => rfl

/-- **How the stream was cut makes no difference.** -/
theorem feedAll_eq_drain (chunks : List (List β)) (w : σ) :
    feedAll D receive chunks w = drain D receive chunks.flatten w := by
  have hfold : ∀ s : List β, chunks.foldl (feed D receive) (drain D receive s w)
      = drain D receive (s ++ chunks.flatten) w := by
    induction chunks with
    | nil =>
      intro s
      rw [List.foldl_nil, List.flatten_nil, List.append_nil]
    | cons chunk chunks ih =>
      intro s
      rw [List.foldl_cons, feed_drain, ih, List.flatten_cons, List.append_assoc]
  have h := hfold []
  rwa [drain_nil, List.nil_append] at h

/-- **What every item keeps, draining keeps.** -/
theorem drain_rule {P : σ → Prop} (h : ∀ a w, P w → P (receive a w).2) (s : List β) (hw : P w) :
    P (drain D receive s w).state := by
  induction hn : s.length using Nat.strongRecOn generalizing s w with
  | _ n ih =>
    cases hnext : D.next s with
    | more =>
      rw [drain_more hnext]
      exact hw
    | fail e =>
      rw [drain_fail hnext]
      exact hw
    | item a rest =>
      have ha := h a w hw
      rw [drain_item hnext]
      rcases hreceive : receive a w with ⟨v, w'⟩
      rw [hreceive] at ha
      cases v with
      | goOn => exact ih rest.length (hn ▸ D.length_lt hnext) rest ha rfl
      | stop => exact ha
      | abort e => exact ha

/-! ## A caller that stops -/

section Halting

variable (D receive) (halted : σ → Prop) [DecidablePred halted]

/-- One more chunk, unless the receiver has halted. -/
def feedUnless (r : Run β ι ε σ) (chunk : List β) : Run β ι ε σ :=
  if halted r.state then r else feed D receive r chunk

/-- All chunks, from an empty buffer, until the receiver has halted. -/
def feedUntil (chunks : List (List β)) (w : σ) : Run β ι ε σ :=
  chunks.foldl (feedUnless D receive halted) ⟨[], .waiting [], w⟩

variable {D receive halted}

theorem foldl_feedUnless_of_halted {r : Run β ι ε σ} (h : halted r.state)
    (chunks : List (List β)) : chunks.foldl (feedUnless D receive halted) r = r := by
  induction chunks with
  | nil => rfl
  | cons chunk chunks ih => rwa [List.foldl_cons, feedUnless, if_pos h]

variable (D receive halted) in
/-- **The beginning of the stream has been drained**, and all of it unless that has halted the
receiver. -/
theorem feedUntil_eq_drain (chunks : List (List β)) (w : σ) :
    ∃ p t, p ++ t = chunks.flatten
      ∧ feedUntil D receive halted chunks w = drain D receive p w
      ∧ (t = [] ∨ halted (drain D receive p w).state) := by
  have hfold : ∀ s : List β, ∃ p t, p ++ t = s ++ chunks.flatten
      ∧ chunks.foldl (feedUnless D receive halted) (drain D receive s w) = drain D receive p w
      ∧ (t = [] ∨ halted (drain D receive p w).state) := by
    induction chunks with
    | nil => exact fun s => ⟨s, [], rfl, rfl, .inl rfl⟩
    | cons chunk chunks ih =>
      intro s
      by_cases hs : halted (drain D receive s w).state
      · exact ⟨s, _, rfl, foldl_feedUnless_of_halted hs _, .inr hs⟩
      · rw [List.foldl_cons, feedUnless, if_neg hs, feed_drain, List.flatten_cons,
          ← List.append_assoc]
        exact ih (s ++ chunk)
  have h := hfold []
  rwa [drain_nil, List.nil_append] at h

variable (D receive halted) in
/-- **When how the stream was cut makes no difference** to what is seen of the state: wherever a
beginning of the stream halts the receiver, nothing is seen of the rest. -/
theorem feedUntil_agree_iff (see : σ → α) (hw : ¬ halted w) (s : List β) :
    (∀ chunks chunks' : List (List β), chunks.flatten = s → chunks'.flatten = s →
        see (feedUntil D receive halted chunks w).state
          = see (feedUntil D receive halted chunks' w).state)
      ↔ ∀ p t, p ++ t = s → halted (drain D receive p w).state →
        see (drain D receive p w).state = see (drain D receive s w).state := by
  constructor
  · intro h p t hs hp
    -- cut behind `p`, or not at all
    have hfeed (chunk : List β) :
        feedUnless D receive halted ⟨[], .waiting [], w⟩ chunk = drain D receive chunk w :=
      if_neg hw
    have hcut := h [p, t] [s] (by rw [← hs]; simp) (by simp)
    rw [feedUntil, feedUntil, List.foldl_cons, hfeed, foldl_feedUnless_of_halted hp] at hcut
    rwa [List.foldl_cons, hfeed, List.foldl_nil] at hcut
  · intro h
    have hwhole (chunks : List (List β)) (hs : chunks.flatten = s) :
        see (feedUntil D receive halted chunks w).state = see (drain D receive s w).state := by
      obtain ⟨p, t, hp, hfeed, hend⟩ := feedUntil_eq_drain D receive halted chunks w
      rw [hs] at hp
      rw [hfeed]
      rcases hend with rfl | hhalted
      · rw [← hp, List.append_nil]
      · exact h p t hp hhalted
    intro chunks chunks' hs hs'
    rw [hwhole chunks hs, hwhole chunks' hs']

end Halting

end Consumer
