import HttpServer.RingBuffer
import HttpServer.Search

/-!
# Searching the ring buffer

`RingBuffer` has two searches. The one for a pattern compares at each position, and
gets at the cells by their index modulo the capacity; the one for a character looks
through at most two stretches of the vector with `std::find`, and translates where
it stopped into a position among the stored bytes.

Both find the first match in what is stored (`WellFormed.search_eq`): where the
bytes go around the end of the vector, and where a match does, too.
-/

namespace RingBuffer

/-! ## The source -/

/-- `std::find` on a range, as the distance from its begin. -/
def stdFind (range : Bytes) (c : UInt8) : ℕ := range.findIdx (· == c)

/-- `find(char)`; `none` is `npos`. -/
def findChar (rb : RingBuffer) (c : UInt8) : Option ℕ :=
  if rb.empty then none
  else
    let readable := rb.readableBytes
    let back := rb.capacity - rb.readPos
    if readable ≤ back then
      let it := stdFind ((rb.buffer.drop rb.readPos).take readable) c
      if it ≠ readable then some it else none
    else
      let it1 := stdFind (rb.buffer.drop rb.readPos) c
      if it1 ≠ back then some it1
      else
        let it2 := stdFind (rb.buffer.take (readable - back)) c
        if it2 ≠ readable - back then some (back + it2) else none

/-- The inner loop of `find(pattern)`, from `j` on: `match` as it is at the end. -/
def matchLoop (rb : RingBuffer) (i : ℕ) : ℕ → Bytes → Bool
  | _, [] => true
  | j, c :: pattern =>
    let pos := (rb.readPos + i + j) % rb.capacity
    if rb.buffer[pos]? ≠ some c then false else matchLoop rb i (j + 1) pattern

/-- The outer loop, with so many more positions from `i` on. -/
def findLoop (rb : RingBuffer) (pattern : Bytes) : ℕ → ℕ → Option ℕ
  | 0, _ => none
  | more + 1, i =>
    if matchLoop rb i 0 pattern then some i else findLoop rb pattern more (i + 1)

/-- `find(pattern)`. -/
def find (rb : RingBuffer) (pattern : Bytes) : Option ℕ :=
  if pattern.isEmpty || rb.readableBytes < pattern.length then none
  else findLoop rb pattern (rb.readableBytes - pattern.length + 1) 0

variable {rb : RingBuffer}

/-! ## The search for a pattern -/

/-- The inner loop compares the pattern with the cells, one after the other. -/
theorem matchLoop_iff {i j : ℕ} {pattern : Bytes} :
    rb.matchLoop i j pattern = true ↔
      ∀ k < pattern.length, rb.buffer[(rb.readPos + i + j + k) % rb.capacity]? = pattern[k]? := by
  induction pattern generalizing j with
  | nil => simp [matchLoop]
  | cons c pattern ih =>
    have hnext : ∀ k, rb.readPos + i + (j + 1) + k = rb.readPos + i + j + (k + 1) := by omega
    rw [matchLoop]
    constructor
    · intro h k hk
      split at h
      · cases h
      · rename_i hc
        cases k with
        | zero => exact not_not.mp hc
        | succ k =>
          have := ih.mp h k (by rw [List.length_cons] at hk; omega)
          rw [List.getElem?_cons_succ, ← this, hnext]
    · intro h
      have hc : rb.buffer[(rb.readPos + i + j) % rb.capacity]? = some c :=
        h 0 (by rw [List.length_cons]; omega)
      rw [if_neg (not_not.mpr hc)]
      refine ih.mpr fun k hk => ?_
      have := h (k + 1) (by rw [List.length_cons]; omega)
      rw [List.getElem?_cons_succ] at this
      rw [← this, hnext]

/-- **The inner loop decides whether the stored bytes continue with the pattern.** -/
theorem WellFormed.matchLoop_iff_matchAt (h : rb.WellFormed) {i : ℕ} {pattern : Bytes}
    (hi : i + pattern.length ≤ rb.readableBytes) :
    rb.matchLoop i 0 pattern = true ↔ Search.MatchAt pattern rb.contents i := by
  have hlt := h.readableBytes_lt
  have hlen : pattern.length ≤ rb.buffer.length := by unfold capacity at hlt; omega
  have hwindow : (rb.contents.drop i).take pattern.length
      = Circular.window rb.buffer (rb.readPos + i) pattern.length := by
    rw [contents, Circular.drop_window (by omega) hlt.le, Circular.take_window (by omega)]
  rw [matchLoop_iff, Search.MatchAt, hwindow, List.ext_getElem?_iff]
  constructor
  · intro hcells k
    by_cases hk : k < pattern.length
    · rw [Circular.getElem?_window hk hlen]
      exact hcells k hk
    · rw [List.getElem?_eq_none (by rw [Circular.length_window hlen]; omega),
        List.getElem?_eq_none (by omega)]
  · intro hcells k hk
    rw [← hcells k, Circular.getElem?_window hk hlen]
    rfl

/-- The outer loop stops at the first position whose test succeeds. -/
theorem findLoop_spec (rb : RingBuffer) (pattern : Bytes) (more i : ℕ) :
    match rb.findLoop pattern more i with
    | some k => i ≤ k ∧ k < i + more ∧ rb.matchLoop k 0 pattern = true ∧
        ∀ m, i ≤ m → m < k → ¬ rb.matchLoop m 0 pattern = true
    | none => ∀ m, i ≤ m → m < i + more → ¬ rb.matchLoop m 0 pattern = true := by
  induction more generalizing i with
  | zero =>
    intro m hle hlt
    omega
  | succ more ih =>
    rw [findLoop]
    by_cases htest : rb.matchLoop i 0 pattern = true
    · rw [if_pos htest]
      exact ⟨Nat.le_refl i, by omega, htest, fun m hle hlt => by omega⟩
    · rw [if_neg htest]
      have hstep : ∀ m, i ≤ m → i = m ∨ i + 1 ≤ m := fun m hle => by omega
      specialize ih (i := i + 1)
      split at ih
      · obtain ⟨hle, hlt, hmatch, hfirst⟩ := ih
        refine ⟨by omega, by omega, hmatch, fun m hm hk => ?_⟩
        obtain rfl | hm := hstep m hm
        · exact htest
        · exact hfirst m hm hk
      · intro m hm hk
        obtain rfl | hm := hstep m hm
        · exact htest
        · exact ih m hm (by omega)

/-- **`find(pattern)` finds the first match in what is stored.** -/
theorem WellFormed.isFirst_find (h : rb.WellFormed) {pattern : Bytes} (hne : pattern ≠ []) :
    Search.IsFirst pattern rb.contents (rb.find pattern) := by
  have hlen := h.length_contents
  have hend : ∀ {i}, Search.MatchAt pattern rb.contents i →
      i + pattern.length ≤ rb.readableBytes := fun hm => hlen ▸ hm.add_length_le hne
  have hempty : pattern.isEmpty = false := by simpa using hne
  rw [find, hempty, Bool.false_or]
  by_cases hshort : rb.readableBytes < pattern.length
  · rw [if_pos (by simpa using hshort)]
    intro i hm
    have := hend hm
    omega
  · rw [if_neg (by simpa using hshort)]
    have hspec := findLoop_spec rb pattern (rb.readableBytes - pattern.length + 1) 0
    split at hspec
    · rename_i k hk
      obtain ⟨-, hlt, hmatch, hfirst⟩ := hspec
      rw [hk]
      refine ⟨(h.matchLoop_iff_matchAt (by omega)).mp hmatch, fun m hm hm' => ?_⟩
      exact hfirst m (Nat.zero_le m) hm ((h.matchLoop_iff_matchAt (hend hm')).mpr hm')
    · rename_i hk
      rw [hk]
      intro m hm
      have hle := hend hm
      exact hspec m (Nat.zero_le m) (by omega) ((h.matchLoop_iff_matchAt hle).mpr hm)

/-! ## The search for a character -/

/-- `std::find` stops at the first match, or at the end of the range. -/
theorem isFirst_stdFind (s : Bytes) (c : UInt8) :
    Search.IsFirst [c] s (if stdFind s c ≠ s.length then some (stdFind s c) else none) := by
  unfold stdFind
  split
  · rename_i hne
    have hlt : s.findIdx (· == c) < s.length := lt_of_le_of_ne List.findIdx_le_length hne
    refine ⟨Search.matchAt_singleton_iff.mpr ?_, fun k hk hm => ?_⟩
    · rw [List.getElem?_eq_getElem hlt]
      exact congrArg some (eq_of_beq (List.findIdx_getElem (w := hlt)))
    · have hk' := List.not_of_lt_findIdx hk
      rw [Search.matchAt_singleton_iff, List.getElem?_eq_getElem (by omega),
        Option.some.injEq] at hm
      simp [hm] at hk'
  · rename_i heq
    have hno := List.findIdx_eq_length.mp (not_not.mp heq)
    intro k hm
    have hc : c ∈ s := List.mem_of_getElem? (Search.matchAt_singleton_iff.mp hm)
    simpa using hno c hc

/-- The two stretches are searched like one. -/
theorem stdFind_append (s t : Bytes) (c : UInt8) :
    stdFind (s ++ t) c
      = if stdFind s c ≠ s.length then stdFind s c else s.length + stdFind t c := by
  have hle : stdFind s c ≤ s.length := List.findIdx_le_length
  unfold stdFind at hle ⊢
  rw [List.findIdx_append]
  split_ifs <;> omega

/-- **`find(char)` finds the first match in what is stored.** -/
theorem WellFormed.isFirst_findChar (h : rb.WellFormed) (c : UInt8) :
    Search.IsFirst [c] rb.contents (rb.findChar c) := by
  have hlen := h.length_contents
  have hlt := h.readableBytes_lt
  have hr : rb.readPos < rb.buffer.length := h.readPos_lt
  have hcap : rb.capacity = rb.buffer.length := rfl
  have hfirst := isFirst_stdFind rb.contents c
  rw [hlen] at hfirst
  unfold findChar
  by_cases he : rb.empty = true
  · rw [if_pos he, h.contents_of_empty he]
    intro i hm
    cases Search.matchAt_singleton_iff.mp hm
  · rw [if_neg he]
    dsimp only
    by_cases hback : rb.readableBytes ≤ rb.capacity - rb.readPos
    · have hcont : rb.contents = (rb.buffer.drop rb.readPos).take rb.readableBytes :=
        Circular.window_of_le (by omega)
      rw [if_pos hback, hcont]
      rwa [hcont] at hfirst
    · have hcont : rb.contents = rb.buffer.drop rb.readPos
          ++ rb.buffer.take (rb.readableBytes - (rb.capacity - rb.readPos)) := by
        rw [contents, Circular.window_of_ge hr.le (by omega) (by omega)]
        congr 2
        omega
      have hlen₁ : (rb.buffer.drop rb.readPos).length = rb.capacity - rb.readPos :=
        List.length_drop
      have hit₁ : stdFind (rb.buffer.drop rb.readPos) c ≤ rb.capacity - rb.readPos :=
        hlen₁ ▸ List.findIdx_le_length
      -- where `std::find` stops in the two stretches, and where it stops in the stored bytes
      rw [if_neg hback]
      rw [hcont, stdFind_append, hlen₁, ← hcont] at hfirst
      by_cases h₁ : stdFind (rb.buffer.drop rb.readPos) c = rb.capacity - rb.readPos
      · rw [if_neg (not_not.mpr h₁)] at hfirst ⊢
        by_cases h₂ : stdFind (rb.buffer.take (rb.readableBytes - (rb.capacity - rb.readPos))) c
            = rb.readableBytes - (rb.capacity - rb.readPos)
        · rw [if_neg (not_not.mpr h₂)]
          rwa [if_neg (by omega)] at hfirst
        · rw [if_pos h₂]
          rwa [if_pos (by omega)] at hfirst
      · rw [if_pos h₁] at hfirst ⊢
        rwa [if_pos (by omega)] at hfirst

/-- **Searches see the logical contents**: `find(pattern)` gives the least position at
which the stored bytes continue with the pattern, and `find(char)` is the search for
the pattern of that one character. -/
theorem WellFormed.search_eq (h : rb.WellFormed) :
    (∀ pattern : Bytes, pattern ≠ [] →
        Search.IsFirst pattern rb.contents (rb.find pattern)) ∧
      ∀ c, rb.findChar c = rb.find [c] :=
  ⟨fun _ hne => h.isFirst_find hne,
    fun c => (h.isFirst_findChar c).unique (h.isFirst_find (List.cons_ne_nil c []))⟩

/-- Eight cells, the stored bytes going around the end: `45678`. -/
def wrapped : RingBuffer := ⟨[54, 55, 56, 0, 0, 0, 52, 53], 6, 3⟩

theorem wrapped_wellFormed : wrapped.WellFormed := ⟨by decide, by decide, by decide⟩

/-- The searches there. -/
theorem search_eq_wrapped :
    (∀ pattern : Bytes, pattern ≠ [] →
        Search.IsFirst pattern wrapped.contents (wrapped.find pattern)) ∧
      ∀ c, wrapped.findChar c = wrapped.find [c] :=
  wrapped_wellFormed.search_eq

/-- `567` goes around the end of the vector, and `89` is not there. -/
example : wrapped.find [53, 54, 55] = some 1 ∧ wrapped.find [54, 55, 56] = some 2 ∧
    wrapped.find [56, 57] = none ∧ wrapped.findChar 56 = some 4 := by decide

end RingBuffer
