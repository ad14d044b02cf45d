import Mathlib.Data.List.Infix

/-!
# Searching a list for a pattern

`Search.find pat s` is the first position at which `s` continues with `pat`. Two
facts carry the proofs about parsers that read a growing buffer: a match is not
moved or lost by what is appended to the list (`find_append_of_some`), and a
stretch without the first symbol of the pattern is skipped
(`find_append_of_notMem`). No match goes across a symbol that the pattern does not
have (`find_append_cons_of_none`).
-/

namespace Search

variable {α : Type*} [DecidableEq α]

/-- The first position where `s` continues with `pat`. -/
def find (pat : List α) : List α → Option ℕ
  | [] => if pat.isEmpty then some 0 else none
  | c :: s => if pat.isPrefixOf (c :: s) then some 0 else (find pat s).map (· + 1)

/-- `pat` occurs in `s`. -/
def contains (pat s : List α) : Bool := (find pat s).isSome

variable {pat s t : List α} {i : ℕ}

theorem find_of_prefix (h : pat <+: s) : find pat s = some 0 := by
  cases s with
  | nil => simp [find, List.prefix_nil.mp h]
  | cons c s => simp [find, h]

/-- A match is where the list continues with the pattern. -/
theorem prefix_drop_of_find (h : find pat s = some i) : pat <+: s.drop i := by
  induction s generalizing i with
  | nil =>
    simp only [find] at h
    split at h
    · rename_i hnil
      rw [List.isEmpty_iff.mp hnil]
      exact List.nil_prefix
    · cases h
  | cons c s ih =>
    simp only [find] at h
    split at h
    · rename_i hpre
      cases h
      exact List.isPrefixOf_iff_prefix.mp hpre
    · obtain ⟨j, hj, rfl⟩ := Option.map_eq_some_iff.mp h
      exact ih hj

/-- A pattern is found wherever it occurs. -/
theorem contains_of_infix (h : pat <:+: s) : contains pat s = true := by
  obtain ⟨a, b, rfl⟩ := h
  induction a with
  | nil => rw [contains, List.nil_append, find_of_prefix (List.prefix_append pat b)]; rfl
  | cons c a ih =>
    rw [contains] at ih ⊢
    rw [List.cons_append, List.cons_append, find]
    split
    · rfl
    · rw [Option.isSome_map, ih]

theorem infix_of_contains (h : contains pat s = true) : pat <:+: s := by
  obtain ⟨i, hi⟩ := Option.isSome_iff_exists.mp h
  exact (prefix_drop_of_find hi).isInfix.trans (List.drop_suffix i s).isInfix

/-- A match ends within the list. -/
theorem add_length_le_of_find (h : find pat s = some i) (hne : pat ≠ []) :
    i + pat.length ≤ s.length := by
  have hle := (prefix_drop_of_find h).length_le
  have hpos := List.length_pos_of_ne_nil hne
  rw [List.length_drop] at hle
  omega

/-- **A match stays where it is when the list grows.** -/
theorem find_append_of_some (h : find pat s = some i) (t : List α) (hne : pat ≠ []) :
    find pat (s ++ t) = some i := by
  induction s generalizing i with
  | nil =>
    have hle := add_length_le_of_find h hne
    have hpos := List.length_pos_of_ne_nil hne
    rw [List.length_nil] at hle
    omega
  | cons c s ih =>
    have hle := add_length_le_of_find h hne
    simp only [find] at h
    split at h
    · rename_i hpre
      cases h
      exact find_of_prefix ((List.isPrefixOf_iff_prefix.mp hpre).trans (List.prefix_append _ t))
    · rename_i hpre
      obtain ⟨j, hj, rfl⟩ := Option.map_eq_some_iff.mp h
      -- the match further on leaves no room for one that reaches into `t`
      have hpre' : ¬ pat.isPrefixOf (c :: (s ++ t)) = true := by
        intro hcontra
        refine hpre (List.isPrefixOf_iff_prefix.mpr ?_)
        have hp : pat <+: (c :: s) ++ t := List.isPrefixOf_iff_prefix.mp hcontra
        exact List.prefix_of_prefix_length_le hp (List.prefix_append _ t) (by omega)
      rw [List.cons_append, find, if_neg hpre', ih hj]
      rfl

/-- What is found in a beginning of a list is found in the list, behind the same symbols. -/
theorem find_of_find_take {n : ℕ} (h : find pat (s.take n) = some i) (hne : pat ≠ []) :
    find pat s = some i ∧ (s.take n).take i = s.take i := by
  have hle := add_length_le_of_find h hne
  rw [List.length_take] at hle
  have happend := find_append_of_some h (s.drop n) hne
  rw [List.take_append_drop] at happend
  exact ⟨happend, by rw [List.take_take, Nat.min_eq_left (by omega)]⟩

/-- In front of a match there is none. -/
theorem find_take_of_find (h : find pat s = some i) (hne : pat ≠ []) :
    find pat (s.take i) = none := by
  cases hfront : find pat (s.take i) with
  | none => rfl
  | some j =>
    obtain ⟨hj, -⟩ := find_of_find_take hfront hne
    rw [h, Option.some.injEq] at hj
    have hle := add_length_le_of_find hfront hne
    have hpos := List.length_pos_iff.mpr hne
    rw [List.length_take] at hle
    omega

/-- **A stretch without the first symbol of the pattern is skipped.** -/
theorem find_append_of_notMem {c : α} {p a : List α} (h : c ∉ a) (s : List α) :
    find (c :: p) (a ++ s) = (find (c :: p) s).map (· + a.length) := by
  induction a with
  | nil => simp
  | cons d a ih =>
    rw [List.mem_cons, not_or] at h
    obtain ⟨hne, ha⟩ := h
    have hpre : ¬ (c :: p).isPrefixOf (d :: (a ++ s)) = true := by
      rw [List.isPrefixOf_iff_prefix, List.cons_prefix_cons]
      exact fun hc => hne hc.1
    rw [List.cons_append, find, if_neg hpre, ih ha, Option.map_map, List.length_cons]
    rfl

/-- Without the first symbol of the pattern there is no match. -/
theorem find_eq_none_of_notMem {c : α} {p a : List α} (h : c ∉ a) : find (c :: p) a = none := by
  have h' := find_append_of_notMem (p := p) h []
  rw [List.append_nil] at h'
  rw [h']
  rfl

/-- A pattern that is not found does not occur. -/
theorem not_prefix_of_find_eq_none (h : find pat s = none) : ¬ pat <+: s := by
  intro hpre
  have hfound := find_of_prefix hpre
  rw [h] at hfound
  cases hfound

/-- What does not occur does not occur further on. -/
theorem find_eq_none_of_cons {d : α} (h : find pat (d :: s) = none) : find pat s = none := by
  have hno : ¬ pat.isPrefixOf (d :: s) = true := fun hp =>
    not_prefix_of_find_eq_none h (List.isPrefixOf_iff_prefix.mp hp)
  rw [find, if_neg hno] at h
  exact Option.map_eq_none_iff.mp h

omit [DecidableEq α] in
/-- A prefix without a symbol ends before it. -/
theorem prefix_of_prefix_append_cons {c : α} (hc : c ∉ pat) (h : pat <+: s ++ c :: t) :
    pat <+: s := by
  rcases Nat.le_total pat.length s.length with hle | hlt
  · exact List.prefix_of_prefix_length_le h (List.prefix_append _ _) hle
  · rcases Nat.eq_or_lt_of_le hlt with heq | hlt
    · exact List.prefix_of_prefix_length_le h (List.prefix_append _ _) heq.ge
    · have hcat : s ++ c :: t = s ++ [c] ++ t := by simp
      have hpre : s ++ [c] <+: pat := by
        refine List.prefix_of_prefix_length_le (hcat ▸ List.prefix_append _ _) h ?_
        rw [List.length_append, List.length_singleton]
        exact hlt
      exact absurd (hpre.subset (List.mem_append_right _ (List.mem_singleton_self c))) hc

/-- **A symbol that the pattern does not have separates the matches.** -/
theorem find_append_cons_of_none {c : α} (hne : pat ≠ []) (hc : c ∉ pat)
    (h : find pat s = none) (t : List α) :
    find pat (s ++ c :: t) = (find pat t).map (· + (s.length + 1)) := by
  induction s with
  | nil =>
    have hpre : ¬ pat.isPrefixOf (c :: t) = true := fun hp =>
      hne (List.prefix_nil.mp
        (prefix_of_prefix_append_cons (s := []) hc (List.isPrefixOf_iff_prefix.mp hp)))
    rw [List.nil_append, find, if_neg hpre]
    rfl
  | cons d s ih =>
    have hpre : ¬ pat.isPrefixOf (d :: (s ++ c :: t)) = true := fun hp =>
      not_prefix_of_find_eq_none h
        (prefix_of_prefix_append_cons (s := d :: s) hc (List.isPrefixOf_iff_prefix.mp hp))
    rw [List.cons_append, find, if_neg hpre, ih (find_eq_none_of_cons h), Option.map_map]
    rfl

/-- **The first match stands where the pattern is put behind a stretch without one**, if its first
symbol does not come again in it. -/
theorem find_append_self {c : α} {p : List α} (hc : c ∉ p) (h : find (c :: p) s = none)
    (t : List α) : find (c :: p) (s ++ (c :: p ++ t)) = some s.length := by
  induction s with
  | nil => exact find_of_prefix (List.prefix_append _ t)
  | cons d s ih =>
    have hpre : ¬ (c :: p).isPrefixOf (d :: (s ++ (c :: p ++ t))) = true := by
      intro hp
      obtain ⟨hd, hp⟩ := List.cons_prefix_cons.mp (List.isPrefixOf_iff_prefix.mp hp)
      refine not_prefix_of_find_eq_none h (List.cons_prefix_cons.mpr ⟨hd, ?_⟩)
      exact prefix_of_prefix_append_cons hc hp
    rw [List.cons_append, find, if_neg hpre, ih (find_eq_none_of_cons h)]
    rfl

/-- A symbol that is found stands where the list is cut, for the first time. -/
theorem split_of_find_singleton {c : α} (h : find [c] s = some i) :
    c ∉ s.take i ∧ s = s.take i ++ c :: s.drop (i + 1) := by
  induction s generalizing i with
  | nil => cases h
  | cons d s ih =>
    rw [find] at h
    split at h
    · rename_i hpre
      cases h
      obtain ⟨rfl, -⟩ := List.cons_prefix_cons.mp (List.isPrefixOf_iff_prefix.mp hpre)
      exact ⟨List.not_mem_nil, rfl⟩
    · rename_i hpre
      obtain ⟨j, hj, rfl⟩ := Option.map_eq_some_iff.mp h
      obtain ⟨hmem, hs⟩ := ih hj
      have hne : c ≠ d := by
        rintro rfl
        exact hpre (List.isPrefixOf_iff_prefix.mpr (List.prefix_append [c] s))
      refine ⟨?_, congrArg (d :: ·) hs⟩
      rw [List.take_succ_cons, List.mem_cons, not_or]
      exact ⟨hne, hmem⟩

/-- A symbol that is not found is not there. -/
theorem notMem_of_find_singleton {c : α} (h : find [c] s = none) : c ∉ s := by
  intro hmem
  obtain ⟨a, b, rfl⟩ := List.append_of_mem hmem
  have hfound : contains [c] (a ++ c :: b) = true :=
    contains_of_infix ⟨a, b, by rw [List.append_assoc]; rfl⟩
  rw [contains, h] at hfound
  cases hfound

/-- The first match, behind a stretch without the first symbol of the pattern. -/
theorem find_append_pattern {c : α} {p a : List α} (h : c ∉ a) (t : List α) :
    find (c :: p) (a ++ (c :: p ++ t)) = some a.length := by
  rw [find_append_of_notMem h, find_of_prefix (List.prefix_append _ t)]
  simp

/-- **A match is not moved by a map** that tells the symbols of the pattern from all others. -/
theorem find_map {β : Type*} [DecidableEq β] {f : α → β} (h : ∀ c ∈ pat, ∀ x, f c = f x → c = x)
    (s : List α) : find (pat.map f) (s.map f) = find pat s := by
  have hprefix : ∀ s : List α, (pat.map f).isPrefixOf (s.map f) = pat.isPrefixOf s := by
    induction pat with
    | nil => exact fun s => rfl
    | cons c p ih =>
      rintro (- | ⟨d, s⟩)
      · rfl
      · have hhead : (f c == f d) = (c == d) := by
          rw [Bool.eq_iff_iff, beq_iff_eq, beq_iff_eq]
          exact ⟨h c List.mem_cons_self d, congrArg f⟩
        have htail := ih (fun c hc => h c (List.mem_cons_of_mem _ hc)) s
        simp only [List.map_cons, List.isPrefixOf, hhead, htail]
  induction s with
  | nil => simp only [List.map_nil, find, List.isEmpty_map]
  | cons d s ih =>
    have hhead := hprefix (d :: s)
    rw [List.map_cons] at hhead ⊢
    rw [find, find, hhead, ih]

/-! ## What a search is to find -/

omit [DecidableEq α]

/-- The list continues at `i` with the pattern. -/
def MatchAt (pat s : List α) (i : ℕ) : Prop := (s.drop i).take pat.length = pat

/-- **The least position of a match**, and `none` if there is no match. -/
def IsFirst (pat s : List α) : Option ℕ → Prop
  | some i => MatchAt pat s i ∧ ∀ k < i, ¬ MatchAt pat s k
  | none => ∀ i, ¬ MatchAt pat s i

/-- There is one least position at most. -/
theorem IsFirst.unique {r r' : Option ℕ} (h : IsFirst pat s r) (h' : IsFirst pat s r') :
    r = r' := by
  cases r with
  | none =>
    cases r' with
    | none => rfl
    | some j => exact absurd h'.1 (h j)
  | some i =>
    cases r' with
    | none => exact absurd h.1 (h' i)
    | some j =>
      rcases Nat.lt_trichotomy i j with hlt | rfl | hlt
      · exact absurd h.1 (h'.2 i hlt)
      · rfl
      · exact absurd h'.1 (h.2 j hlt)

/-- A match ends in the list. -/
theorem MatchAt.add_length_le (h : MatchAt pat s i) (hne : pat ≠ []) :
    i + pat.length ≤ s.length := by
  have hlen := congrArg List.length h
  have hpos := List.length_pos_iff.mpr hne
  rw [List.length_take, List.length_drop] at hlen
  omega

theorem matchAt_singleton_iff {c : α} : MatchAt [c] s i ↔ s[i]? = some c := by
  rw [MatchAt, List.length_singleton, List.take_one, List.head?_drop]
  cases s[i]? with
  | none => simp
  | some d => simp

end Search
