import HttpServer.Search

/-!
# Text between quotes

A text with quotes in it is a list of segments, joined by the quotes. Where the text itself cannot
be told apart from what is quoted in it, its segments can: some words, joined and in quotes, occur
in the text exactly where segments that follow each other between quotes are these words
(`find_quoted`), and the first occurrence of another symbol is in the first segment that has it
(`find_symbol`). What is quoted may have quotes in it itself: its words are its own segments.
-/

namespace QuotedText

variable {α : Type*} [DecidableEq α]

/-- Segments, joined by quotes. -/
def join (q : α) : List (List α) → List α
  | [] => []
  | [s] => s
  | s :: t :: segments => s ++ q :: join q (t :: segments)

/-- Some words stand at the front of the segments, with a quote behind the last one. -/
def Stands (ws segments : List (List α)) : Prop := ws <+: segments ∧ ws.length < segments.length

instance (ws segments : List (List α)) : Decidable (Stands ws segments) :=
  inferInstanceAs (Decidable (_ ∧ _))

/-- The segments from the place on where the words first stand. -/
def fromWords (ws : List (List α)) : List (List α) → Option (List (List α))
  | [] => none
  | s :: segments =>
    if Stands ws (s :: segments) then some (s :: segments) else fromWords ws segments

/-- What stands behind the first occurrence of a symbol: the rest of its segment, and the
segments behind that. -/
def behind (c : α) : List (List α) → Option (List α × List (List α))
  | [] => none
  | s :: segments =>
    if c ∈ s then some ((s.dropWhile (· ≠ c)).tail, segments) else behind c segments

variable {q c : α} {w s : List α} {ws segments : List (List α)}

/-- A text without a symbol ends where the symbol stands. -/
theorem span_append {a : List α} (ha : c ∉ a) (t : List α) :
    (a ++ c :: t).takeWhile (· ≠ c) = a ∧ (a ++ c :: t).dropWhile (· ≠ c) = c :: t := by
  have hall : ∀ x ∈ a, decide (x ≠ c) = true := by
    intro x hx
    refine decide_eq_true ?_
    rintro rfl
    exact ha hx
  constructor
  · rw [List.takeWhile_append_of_pos hall, List.takeWhile_cons_of_neg (by simp), List.append_nil]
  · rw [List.dropWhile_append_of_pos hall, List.dropWhile_cons_of_neg (by simp)]

omit [DecidableEq α] in
theorem join_cons (s : List α) (hne : segments ≠ []) :
    join q (s :: segments) = s ++ q :: join q segments := by
  cases segments with
  | nil => exact absurd rfl hne
  | cons t segments => rfl

omit [DecidableEq α] in
/-- `join` is `List.intercalate`, so that it undoes `List.splitOn`. -/
theorem join_eq_intercalate (segments : List (List α)) :
    join q segments = [q].intercalate segments := by
  induction segments with
  | nil => rfl
  | cons s segments ih =>
    by_cases hne : segments = []
    · subst hne
      exact List.intercalate_singleton.symm
    · rw [join_cons s hne, ih, List.intercalate_cons_of_ne_nil hne, List.append_assoc]
      rfl

theorem notMem_of_mem_splitOn {u : List α} (hw : w ∈ u.splitOn q) : q ∉ w := by
  induction u generalizing w with
  | nil =>
    rw [List.splitOn_nil, List.mem_singleton] at hw
    subst hw
    exact List.not_mem_nil
  | cons d u ih =>
    rw [List.splitOn_cons_eq_if_modifyHead] at hw
    split at hw
    · rcases List.mem_cons.mp hw with rfl | hw
      · exact List.not_mem_nil
      · exact ih hw
    · rename_i hd
      obtain ⟨v, vs, hvs⟩ := List.exists_cons_of_ne_nil (List.splitOn_ne_nil q u)
      rw [hvs] at hw ih
      rcases List.mem_cons.mp hw with rfl | hw
      · rw [List.mem_cons, not_or]
        exact ⟨fun heq => hd (beq_iff_eq.mpr heq.symm), ih List.mem_cons_self⟩
      · exact ih (List.mem_cons_of_mem v hw)

omit [DecidableEq α] in
theorem stands_cons_cons : Stands (w :: ws) (s :: segments) ↔ w = s ∧ Stands ws segments := by
  unfold Stands
  rw [List.cons_prefix_cons, List.length_cons, List.length_cons, Nat.succ_lt_succ_iff, and_assoc]

omit [DecidableEq α] in
theorem stands_nil : Stands [] segments ↔ segments ≠ [] := by
  unfold Stands
  rw [List.length_nil, List.length_pos_iff]
  exact and_iff_right List.nil_prefix

/-- Of two texts up to a quote, one stands in front of the other exactly if they are the same up
to the quote. -/
theorem append_cons_prefix_iff (hw : q ∉ w) (hs : q ∉ s) {a b : List α} :
    w ++ q :: a <+: s ++ q :: b ↔ w = s ∧ a <+: b := by
  constructor
  · rintro ⟨t, ht⟩
    rw [List.append_assoc, List.cons_append] at ht
    have hword : w = s := by
      rw [← (span_append hw (a ++ t)).1, ht, (span_append hs b).1]
    subst hword
    rw [List.append_cancel_left_eq, List.cons.injEq] at ht
    exact ⟨rfl, t, ht.2⟩
  · rintro ⟨rfl, t, rfl⟩
    exact ⟨t, by rw [List.append_assoc, List.cons_append]⟩

/-- Some words and their closing quote stand at the front of the text exactly if they stand at the
front of the segments. -/
theorem prefix_join_iff (hne : ws ≠ []) (hw : ∀ w ∈ ws, q ∉ w) (hs : ∀ s ∈ segments, q ∉ s) :
    join q ws ++ [q] <+: join q segments ↔ Stands ws segments := by
  induction ws generalizing segments with
  | nil => exact absurd rfl hne
  | cons w ws ih =>
    have hword : q ∉ w := hw w List.mem_cons_self
    -- what is behind the first quote
    obtain ⟨a, ha, hbehind⟩ : ∃ a, join q (w :: ws) ++ [q] = w ++ q :: a
        ∧ ∀ segments, (∀ s ∈ segments, q ∉ s) → segments ≠ [] →
          (a <+: join q segments ↔ Stands ws segments) := by
      by_cases hlast : ws = []
      · subst hlast
        exact ⟨[], rfl, fun segments _ hseg => iff_of_true List.nil_prefix (stands_nil.mpr hseg)⟩
      · refine ⟨join q ws ++ [q], ?_, fun segments hs _ => ?_⟩
        · rw [join_cons w hlast, List.append_assoc, List.cons_append]
        · exact ih hlast (fun w' hmem => hw w' (List.mem_cons_of_mem w hmem)) hs
    rw [ha]
    cases segments with
    | nil => exact iff_of_false (by simp [join]) fun h => by cases h.2
    | cons s segments =>
      have hquote : q ∉ s := hs s List.mem_cons_self
      rw [stands_cons_cons]
      by_cases hseg : segments = []
      · subst hseg
        refine iff_of_false (fun hpre => ?_) fun h => by cases h.2.2
        rw [join] at hpre
        exact hquote (hpre.subset (List.mem_append_right _ List.mem_cons_self))
      · rw [join_cons s hseg, append_cons_prefix_iff hword hquote,
          hbehind segments (fun s hmem => hs s (List.mem_cons_of_mem _ hmem)) hseg]

/-- **Where some words stand in quotes.** -/
theorem find_quoted (hne : ws ≠ []) (hw : ∀ w ∈ ws, q ∉ w) (hs : ∀ s ∈ segments, q ∉ s)
    {g : List α} (hg : q ∉ g) :
    match fromWords ws segments with
    | none => Search.find (q :: join q ws ++ [q]) (join q (g :: segments)) = none
    | some found => ∃ pos,
        Search.find (q :: join q ws ++ [q]) (join q (g :: segments)) = some pos
          ∧ (join q (g :: segments)).drop pos = q :: join q found := by
  induction segments generalizing g with
  | nil => exact Search.find_eq_none_of_notMem hg
  | cons s segments ih =>
    have hquote : q ∉ s := hs s List.mem_cons_self
    have hrest : ∀ s ∈ segments, q ∉ s := fun s hmem => hs s (List.mem_cons_of_mem _ hmem)
    have hskip : Search.find (q :: join q ws ++ [q]) (join q (g :: s :: segments))
        = (Search.find (q :: join q ws ++ [q]) (q :: join q (s :: segments))).map
          (· + g.length) := Search.find_append_of_notMem hg _
    have hdrop : (join q (g :: s :: segments)).drop g.length = q :: join q (s :: segments) :=
      List.drop_left
    have hfront : (q :: join q ws ++ [q]) <+: q :: join q (s :: segments)
        ↔ Stands ws (s :: segments) := by
      rw [List.cons_append, List.cons_prefix_cons, and_iff_right rfl]
      exact prefix_join_iff hne hw hs
    rw [fromWords]
    by_cases hstands : Stands ws (s :: segments)
    · rw [if_pos hstands]
      refine ⟨g.length, ?_, hdrop⟩
      rw [hskip, Search.find_of_prefix (hfront.mpr hstands), Option.map_some, Nat.zero_add]
    · have hnot : ¬ (q :: join q ws ++ [q]).isPrefixOf (q :: join q (s :: segments)) = true := by
        rw [List.isPrefixOf_iff_prefix]
        exact mt hfront.mp hstands
      rw [hskip, Search.find, if_neg hnot, if_neg hstands]
      have hfound := ih hrest hquote
      cases hcase : fromWords ws segments with
      | none =>
        rw [hcase] at hfound
        dsimp only at hfound ⊢
        rw [hfound]
        rfl
      | some found =>
        rw [hcase] at hfound
        obtain ⟨pos, hpos, hbehind⟩ := hfound
        refine ⟨pos + 1 + g.length, ?_, ?_⟩
        · rw [hpos]
          rfl
        · rw [Nat.add_comm, ← List.drop_drop, hdrop, List.drop_succ_cons, hbehind]

/-- **Where another symbol stands.** -/
theorem find_symbol (hc : c ≠ q) (segments : List (List α)) :
    match behind c segments with
    | none => Search.find [c] (join q segments) = none
    | some (tail, rest) => ∃ i, Search.find [c] (join q segments) = some i
        ∧ (join q segments).drop (i + 1) = join q (tail :: rest) := by
  induction segments with
  | nil => rfl
  | cons s segments ih =>
    rw [behind]
    by_cases hmem : c ∈ s
    · rw [if_pos hmem]
      obtain ⟨a, b, rfl, ha⟩ := List.eq_append_cons_of_mem hmem
      have htext : join q ((a ++ c :: b) :: segments) = a ++ c :: join q (b :: segments) := by
        cases segments with
        | nil => rfl
        | cons t rest => simp only [join, List.append_assoc, List.cons_append]
      refine ⟨a.length, ?_, ?_⟩
      · rw [htext]
        exact Search.find_append_pattern (p := []) ha _
      · rw [(span_append ha b).2, htext, ← List.drop_drop, List.drop_left]
        rfl
    · rw [if_neg hmem]
      by_cases hne : segments = []
      · subst hne
        exact Search.find_eq_none_of_notMem hmem
      · have hskip : c ∉ s ++ [q] := by
          rw [List.mem_append, List.mem_singleton, not_or]
          exact ⟨hmem, hc⟩
        have htext : join q (s :: segments) = (s ++ [q]) ++ join q segments := by
          rw [join_cons s hne, List.append_assoc, List.singleton_append]
        rw [htext, Search.find_append_of_notMem hskip]
        cases hcase : behind c segments with
        | none =>
          rw [hcase] at ih
          dsimp only at ih ⊢
          rw [ih]
          rfl
        | some found =>
          rw [hcase] at ih
          obtain ⟨i, hi, hbehind⟩ := ih
          refine ⟨i + (s ++ [q]).length, ?_, ?_⟩
          · rw [hi]
            rfl
          · rw [show i + (s ++ [q]).length + 1 = (s ++ [q]).length + (i + 1) by omega,
              ← List.drop_drop, List.drop_left, hbehind]

end QuotedText
