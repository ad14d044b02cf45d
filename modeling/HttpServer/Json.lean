import HttpServer.Utf8

/-!
# JSON texts

JSON as a format of byte strings: how strings are written (`Json.escape`), and how a text is read
(`Json.parse`). A text is encoded in UTF-8, and the strings in it are as well.

Whether a string that was put between quotes as it is, without escapes, is read back depends on
what stands behind the closing quote, since a backslash at its end takes that quote away from it.
Where another quote follows, and only plain bytes and at least one of them stand in between, what
is read back is the string exactly if all of its bytes are plain (`readString_eq_self`).
-/

namespace Json

/-! ## Writing -/

/-- A hexadecimal digit, in lower case. -/
def hexChar (n : UInt8) : UInt8 := if n < 10 then 0x30 + n else 0x57 + n

/-- One byte of a string: a quote, a backslash and the control characters are escaped. -/
def escapeByte (c : UInt8) : List UInt8 :=
  if c = 0x22 then [0x5C, 0x22]
  else if c = 0x5C then [0x5C, 0x5C]
  else if c = 0x08 then [0x5C, 0x62]
  else if c = 0x09 then [0x5C, 0x74]
  else if c = 0x0A then [0x5C, 0x6E]
  else if c = 0x0C then [0x5C, 0x66]
  else if c = 0x0D then [0x5C, 0x72]
  else if c < 0x20 then [0x5C, 0x75, 0x30, 0x30, hexChar (c / 16), hexChar (c % 16)]
  else [c]

/-- A string, without the quotes around it. -/
def escape (s : List UInt8) : List UInt8 := s.flatMap escapeByte

/-- A byte that stands for itself in a string. -/
def isPlain (c : UInt8) : Bool := 0x20 ≤ c && c != 0x22 && c != 0x5C

theorem escapeByte_of_isPlain {c : UInt8} (hc : isPlain c = true) : escapeByte c = [c] := by
  obtain ⟨hlow, hslash⟩ := Bool.and_eq_true_iff.mp hc
  obtain ⟨hlow, hquote⟩ := Bool.and_eq_true_iff.mp hlow
  have hle : 0x20 ≤ c := of_decide_eq_true hlow
  unfold escapeByte
  rw [if_neg (bne_iff_ne.mp hquote), if_neg (bne_iff_ne.mp hslash)]
  repeat rw [if_neg (by rintro rfl; exact absurd hle (by decide))]
  rw [if_neg (UInt8.not_lt.mpr hle)]

/-- A string of such bytes is written as it is. -/
theorem escape_of_isPlain {s : List UInt8} (hs : ∀ c ∈ s, isPlain c = true) : escape s = s := by
  induction s with
  | nil => rfl
  | cons c s ih =>
    rw [escape, List.flatMap_cons, escapeByte_of_isPlain (hs c List.mem_cons_self)]
    exact congrArg (c :: ·) (ih fun d hd => hs d (List.mem_cons_of_mem _ hd))

/-! ## Reading -/

/-- A JSON value. A number is given by its text, and an object by its members, in order. -/
inductive Value
  | null
  | bool (b : Bool)
  | number (text : List UInt8)
  | string (contents : List UInt8)
  | array (elements : List Value)
  | object (members : List (List UInt8 × Value))

/-- The value of a hexadecimal digit. -/
def hexValue (c : UInt8) : Option ℕ :=
  if 0x30 ≤ c ∧ c ≤ 0x39 then some (c.toNat - 0x30)
  else if 0x41 ≤ c ∧ c ≤ 0x46 then some (c.toNat - 0x37)
  else if 0x61 ≤ c ∧ c ≤ 0x66 then some (c.toNat - 0x57)
  else none

def readDigit : List UInt8 → Option (ℕ × List UInt8)
  | [] => none
  | c :: s => (hexValue c).map fun x => (x, s)

/-- Four hexadecimal digits. -/
def codeUnit (s : List UInt8) : Option (ℕ × List UInt8) :=
  (readDigit s).bind fun (a, s) => (readDigit s).bind fun (b, s) =>
    (readDigit s).bind fun (c, s) => (readDigit s).map fun (d, s) =>
      (4096 * a + 256 * b + 16 * c + d, s)

/-- A code point in UTF-8. -/
def utf8Encode (n : ℕ) : List UInt8 :=
  if n < 0x80 then [.ofNat n]
  else if n < 0x800 then [.ofNat (0xC0 + n / 64), .ofNat (0x80 + n % 64)]
  else if n < 0x10000 then
    [.ofNat (0xE0 + n / 4096), .ofNat (0x80 + n / 64 % 64), .ofNat (0x80 + n % 64)]
  else [.ofNat (0xF0 + n / 262144), .ofNat (0x80 + n / 4096 % 64), .ofNat (0x80 + n / 64 % 64),
    .ofNat (0x80 + n % 64)]

/-- The second half of a surrogate pair. -/
def lowSurrogate : List UInt8 → Option (ℕ × List UInt8)
  | a :: b :: s =>
    if a = 0x5C ∧ b = 0x75 then
      (codeUnit s).bind fun (v, s) =>
        if 0xDC00 ≤ v ∧ v < 0xE000 then some (v - 0xDC00, s) else none
    else none
  | _ => none

/-- A code point by its digits, or a pair of surrogates. A surrogate alone stands for nothing. -/
def readUnicode (s : List UInt8) : Option (List UInt8 × List UInt8) :=
  (codeUnit s).bind fun (u, s) =>
    if u < 0xD800 ∨ 0xE000 ≤ u then some (utf8Encode u, s)
    else if u < 0xDC00 then
      (lowSurrogate s).map fun (v, s) => (utf8Encode (0x10000 + 0x400 * (u - 0xD800) + v), s)
    else none

/-- What a letter behind a backslash stands for. -/
def shortEscape (c : UInt8) : Option UInt8 :=
  if c = 0x22 ∨ c = 0x5C ∨ c = 0x2F then some c
  else if c = 0x62 then some 0x08
  else if c = 0x66 then some 0x0C
  else if c = 0x6E then some 0x0A
  else if c = 0x72 then some 0x0D
  else if c = 0x74 then some 0x09
  else none

/-- What stands behind a backslash. -/
def readEscape : List UInt8 → Option (List UInt8 × List UInt8)
  | [] => none
  | c :: s =>
    match shortEscape c with
    | some x => some ([x], s)
    | none => if c = 0x75 then readUnicode s else none

/-- One character of a string, or an escape. -/
def readItem : List UInt8 → Option (List UInt8 × List UInt8)
  | [] => none
  | c :: s => if c = 0x5C then readEscape s else if isPlain c then some ([c], s) else none

/-- What stands behind the opening quote of a string: its contents, and what follows its closing
quote. Each round takes at least one byte, so the length of the text is enough for the rounds. -/
def readString : ℕ → List UInt8 → Option (List UInt8 × List UInt8)
  | 0, _ => none
  | n + 1, s =>
    if s.head? = some 0x22 then some ([], s.tail)
    else (readItem s).bind fun (x, s) => (readString n s).map fun (y, s) => (x ++ y, s)

def isDigit (c : UInt8) : Bool := 0x30 ≤ c && c ≤ 0x39

/-- A byte that may stand in a number. -/
def isNumberByte (c : UInt8) : Bool :=
  isDigit c || c == 0x2B || c == 0x2D || c == 0x2E || c == 0x45 || c == 0x65

/-- An exponent, or nothing. -/
def isExponent : List UInt8 → Bool
  | [] => true
  | c :: s =>
    let digits := match s with
      | 0x2B :: s => s
      | 0x2D :: s => s
      | s => s
    (c == 0x45 || c == 0x65) && !digits.isEmpty && digits.all isDigit

/-- What may follow the integer part of a number. -/
def isFraction : List UInt8 → Bool
  | 0x2E :: s => !(s.takeWhile isDigit).isEmpty && isExponent (s.dropWhile isDigit)
  | s => isExponent s

/-- A number without its sign: no zero in front of other digits. -/
def isUnsigned (s : List UInt8) : Bool :=
  match s.takeWhile isDigit with
  | [] => false
  | [_] => isFraction (s.dropWhile isDigit)
  | c :: _ => c != 0x30 && isFraction (s.dropWhile isDigit)

/-- The text of a number. -/
def isNumber : List UInt8 → Bool
  | 0x2D :: s => isUnsigned s
  | s => isUnsigned s

/-- A number at the front of a text. No byte of a number may follow it. -/
def readNumber (s : List UInt8) : Option (Value × List UInt8) :=
  if isNumber (s.takeWhile isNumberByte) then
    some (.number (s.takeWhile isNumberByte), s.dropWhile isNumberByte)
  else none

/-- White space. -/
def isSpace (c : UInt8) : Bool := c == 0x20 || c == 0x09 || c == 0x0A || c == 0x0D

def skip (s : List UInt8) : List UInt8 := s.dropWhile isSpace

mutual

/-- A value at the front of a text, and what stands behind it. The first number bounds the depth
of the recursion. -/
def readValue : ℕ → List UInt8 → Option (Value × List UInt8)
  | 0, _ => none
  | n + 1, s =>
    match skip s with
    | 0x22 :: s => (readString s.length s).map fun (x, s) => (.string x, s)
    | 0x5B :: s =>
      match skip s with
      | 0x5D :: s => some (.array [], s)
      | s => (readElements n s).map fun (vs, s) => (.array vs, s)
    | 0x7B :: s =>
      match skip s with
      | 0x7D :: s => some (.object [], s)
      | s => (readMembers n s).map fun (ms, s) => (.object ms, s)
    | 0x6E :: 0x75 :: 0x6C :: 0x6C :: s => some (.null, s)
    | 0x74 :: 0x72 :: 0x75 :: 0x65 :: s => some (.bool true, s)
    | 0x66 :: 0x61 :: 0x6C :: 0x73 :: 0x65 :: s => some (.bool false, s)
    | s => readNumber s

/-- The elements of an array that has some, and its closing bracket. -/
def readElements : ℕ → List UInt8 → Option (List Value × List UInt8)
  | 0, _ => none
  | n + 1, s =>
    (readValue n s).bind fun (v, s) =>
      match skip s with
      | 0x2C :: s => (readElements n s).map fun (vs, s) => (v :: vs, s)
      | 0x5D :: s => some ([v], s)
      | _ => none

/-- The members of an object that has some, and its closing brace. -/
def readMembers : ℕ → List UInt8 → Option (List (List UInt8 × Value) × List UInt8)
  | 0, _ => none
  | n + 1, s =>
    match skip s with
    | 0x22 :: s =>
      (readString s.length s).bind fun (name, s) =>
        match skip s with
        | 0x3A :: s =>
          (readValue n s).bind fun (v, s) =>
            match skip s with
            | 0x2C :: s => (readMembers n s).map fun (ms, s) => ((name, v) :: ms, s)
            | 0x7D :: s => some ([(name, v)], s)
            | _ => none
        | _ => none
    | _ => none

end

/-- **The value of a JSON text**, if it is one. Two calls in a row take at least one byte, so twice
the length of the text is enough for the depth. -/
def parse (s : List UInt8) : Option Value :=
  if Utf8.isValid s then
    (readValue (2 * s.length + 2) s).bind fun (v, rest) => if skip rest = [] then some v else none
  else none

/-! ## Strings without escapes -/

variable {n : ℕ} {c : UInt8} {s t x rest : List UInt8}

theorem isPlain_ne (hc : isPlain c = true) : c ≠ 0x22 ∧ c ≠ 0x5C := by
  constructor <;> rintro rfl <;> cases hc

theorem readItem_of_isPlain (hc : isPlain c = true) (s : List UInt8) :
    readItem (c :: s) = some ([c], s) := by
  rw [readItem, if_neg (isPlain_ne hc).2, if_pos hc]

/-- One plain byte is taken off the front of a string. -/
theorem readString_of_isPlain (hc : isPlain c = true) (n : ℕ) (s : List UInt8) :
    readString (n + 1) (c :: s) = (readString n s).map fun (y, s) => (c :: y, s) := by
  have hquote : ¬ (c :: s).head? = some 0x22 := fun h => (isPlain_ne hc).1 (Option.some.inj h)
  rw [readString, if_neg hquote, readItem_of_isPlain hc, Option.bind_some]
  rfl

/-- **Plain bytes in quotes are read back.** -/
theorem readString_append (hs : ∀ c ∈ s, isPlain c = true) (hn : s.length < n) (t : List UInt8) :
    readString n (s ++ 0x22 :: t) = some (s, t) := by
  induction s generalizing n with
  | nil =>
    obtain ⟨m, rfl⟩ := Nat.exists_eq_add_of_lt hn
    rfl
  | cons c s ih =>
    obtain ⟨m, rfl⟩ := Nat.exists_eq_add_of_lt (Nat.lt_of_le_of_lt (Nat.zero_le _) hn)
    rw [Nat.zero_add, List.length_cons, Nat.add_lt_add_iff_right] at hn
    rw [Nat.zero_add, List.cons_append, readString_of_isPlain (hs c List.mem_cons_self),
      ih (fun d hd => hs d (List.mem_cons_of_mem _ hd)) hn]
    rfl

/-- Plain bytes up to the next quote are all that is read, and without a quote nothing is. -/
theorem eq_of_readString_append (hs : ∀ c ∈ s, isPlain c = true)
    (ht : t = [] ∨ ∃ t', t = 0x22 :: t') (h : readString n (s ++ t) = some (x, rest)) : x = s := by
  induction s generalizing n x rest with
  | nil =>
    cases n with
    | zero => cases h
    | succ n =>
      rcases ht with rfl | ⟨t', rfl⟩
      · cases h
      · cases h
        rfl
  | cons c s ih =>
    cases n with
    | zero => cases h
    | succ n =>
      rw [List.cons_append, readString_of_isPlain (hs c List.mem_cons_self),
        Option.map_eq_some_iff] at h
      obtain ⟨⟨y, rest'⟩, hy, heq⟩ := h
      rw [← (Prod.mk.inj heq).1, ih (fun d hd => hs d (List.mem_cons_of_mem _ hd)) hy]

/-! ## Strings with anything in them -/

/-- `k` bytes were taken off the front of what stands before a quote. -/
def Took (k : ℕ) (s t rest : List UInt8) : Prop :=
  ∃ s', s' <:+ s ∧ s'.length + k = s.length ∧ rest = s' ++ 0x22 :: t

theorem Took.trans {k m : ℕ} {s' : List UInt8} (h : Took k s t (s' ++ 0x22 :: t))
    (h' : Took m s' t rest) : Took (k + m) s t rest := by
  obtain ⟨u, hsuffix, hlength, heq⟩ := h
  obtain rfl := List.append_cancel_right heq
  obtain ⟨u', hsuffix', hlength', rfl⟩ := h'
  exact ⟨u', hsuffix'.trans hsuffix, by omega, rfl⟩

theorem took_one (c : UInt8) (s t : List UInt8) : Took 1 (c :: s) t (s ++ 0x22 :: t) :=
  ⟨s, List.suffix_cons c s, rfl, rfl⟩

theorem readDigit_append {a : ℕ} (h : readDigit (s ++ 0x22 :: t) = some (a, rest)) :
    Took 1 s t rest := by
  cases s with
  | nil => cases h
  | cons c s =>
    rw [List.cons_append, readDigit, Option.map_eq_some_iff] at h
    obtain ⟨x, -, heq⟩ := h
    rw [← (Prod.mk.inj heq).2]
    exact took_one c s t

theorem codeUnit_append {u : ℕ} (h : codeUnit (s ++ 0x22 :: t) = some (u, rest)) :
    Took 4 s t rest := by
  unfold codeUnit at h
  simp only [Option.bind_eq_some_iff, Option.map_eq_some_iff, Prod.exists, Prod.mk.injEq] at h
  obtain ⟨a, s₁, h₁, b, s₂, h₂, c, s₃, h₃, d, s₄, h₄, -, rfl⟩ := h
  have took₁ := readDigit_append h₁
  obtain ⟨s₁, -, -, rfl⟩ := id took₁
  have took₂ := took₁.trans (readDigit_append h₂)
  obtain ⟨s₂, -, -, rfl⟩ := id took₂
  have took₃ := took₂.trans (readDigit_append h₃)
  obtain ⟨s₃, -, -, rfl⟩ := id took₃
  exact took₃.trans (readDigit_append h₄)

theorem lowSurrogate_append {v : ℕ} (h : lowSurrogate (s ++ 0x22 :: t) = some (v, rest)) :
    Took 6 s t rest := by
  match s with
  | [] =>
    cases t with
    | nil => cases h
    | cons c t =>
      rw [List.nil_append, lowSurrogate, if_neg fun hc => absurd hc.1 (by decide)] at h
      cases h
  | [c] =>
    rw [List.singleton_append, lowSurrogate, if_neg fun hc => absurd hc.2 (by decide)] at h
    cases h
  | a :: b :: s =>
    rw [List.cons_append, List.cons_append, lowSurrogate] at h
    split at h
    · rw [Option.bind_eq_some_iff] at h
      obtain ⟨⟨v', s'⟩, hunit, h⟩ := h
      dsimp only at h
      split at h
      · rw [← (Prod.mk.inj (Option.some.inj h)).2]
        exact ((took_one a (b :: s) t).trans (took_one b s t)).trans (codeUnit_append hunit)
      · cases h
    · cases h

theorem length_utf8Encode_le (n : ℕ) : (utf8Encode n).length ≤ 4 := by
  unfold utf8Encode
  repeat' split
  all_goals exact Nat.le_add_left _ _

theorem readUnicode_append (h : readUnicode (s ++ 0x22 :: t) = some (x, rest)) :
    x.length ≤ 4 ∧ (Took 4 s t rest ∨ Took 10 s t rest) := by
  unfold readUnicode at h
  rw [Option.bind_eq_some_iff] at h
  obtain ⟨⟨u, s'⟩, hunit, h⟩ := h
  have htook := codeUnit_append hunit
  dsimp only at h
  split at h
  · rw [← (Prod.mk.inj (Option.some.inj h)).1, ← (Prod.mk.inj (Option.some.inj h)).2]
    exact ⟨length_utf8Encode_le u, .inl htook⟩
  · split at h
    · rw [Option.map_eq_some_iff] at h
      obtain ⟨⟨v, s''⟩, hlow, heq⟩ := h
      obtain ⟨s₁, -, -, rfl⟩ := id htook
      rw [← (Prod.mk.inj heq).1, ← (Prod.mk.inj heq).2]
      exact ⟨length_utf8Encode_le _, .inr (htook.trans (lowSurrogate_append hlow))⟩
    · cases h

/-- **One item of what stands before a quote**: a plain byte, or an escape, which is longer than
what it stands for, or an escape of the quote itself. -/
theorem readItem_append (hne : s ≠ []) (h : readItem (s ++ 0x22 :: t) = some (x, rest)) :
    (∃ c s', s = c :: s' ∧ isPlain c = true ∧ x = [c] ∧ rest = s' ++ 0x22 :: t)
      ∨ (∃ k, x.length < k ∧ Took k s t rest)
      ∨ s = [0x5C] ∧ x = [0x22] ∧ rest = t := by
  obtain ⟨c, s, rfl⟩ := List.exists_cons_of_ne_nil hne
  rw [List.cons_append, readItem] at h
  split at h
  · rename_i hslash
    subst hslash
    refine .inr ?_
    cases s with
    | nil =>
      cases h
      exact .inr ⟨rfl, rfl, rfl⟩
    | cons e s =>
      have htwo := (took_one 0x5C (e :: s) t).trans (took_one e s t)
      refine .inl ?_
      rw [List.cons_append, readEscape] at h
      cases hshort : shortEscape e with
      | some y =>
        rw [hshort] at h
        cases h
        exact ⟨2, Nat.lt_succ_self _, htwo⟩
      | none =>
        rw [hshort] at h
        dsimp only at h
        split at h
        · obtain ⟨hlength, htook | htook⟩ := readUnicode_append h
          · exact ⟨6, by omega, htwo.trans htook⟩
          · exact ⟨12, by omega, htwo.trans htook⟩
        · cases h
  · split at h
    · rename_i hplain
      cases h
      exact .inl ⟨c, s, rfl, hplain, rfl, rfl⟩
    · cases h

/-- **What is read of a string that stands in quotes as it is**: something shorter, or the string,
all of whose bytes are plain, or something that goes on to the quote behind its own, which it has
lost to a backslash. -/
theorem readString_cases {plain behind : List UInt8} (hplain : ∀ c ∈ plain, isPlain c = true)
    (hbehind : behind = [] ∨ ∃ t, behind = 0x22 :: t)
    (h : readString n (s ++ 0x22 :: (plain ++ behind)) = some (x, rest)) :
    x.length < s.length
      ∨ (x = s ∧ (∀ c ∈ s, isPlain c = true) ∧ rest = plain ++ behind)
      ∨ plain <:+ x ∧ [0x5C] <:+ s := by
  induction n generalizing s x rest with
  | zero => cases h
  | succ n ih =>
    rw [readString] at h
    split at h
    · rename_i hquote
      cases s with
      | nil =>
        cases h
        exact .inr (.inl ⟨rfl, nofun, rfl⟩)
      | cons c s =>
        rw [← (Prod.mk.inj (Option.some.inj h)).1]
        exact .inl (Nat.succ_pos _)
    · rename_i hquote
      have hne : s ≠ [] := by
        rintro rfl
        exact hquote rfl
      simp only [Option.bind_eq_some_iff, Option.map_eq_some_iff, Prod.exists, Prod.mk.injEq] at h
      obtain ⟨item, s', hitem, y, rest', hrest, rfl, rfl⟩ := h
      rcases readItem_append hne hitem with ⟨c, s, rfl, hc, rfl, rfl⟩
        | ⟨k, hk, u, hsuffix, hlength, rfl⟩
        | ⟨rfl, rfl, rfl⟩
      · rcases ih hrest with hshort | ⟨rfl, hall, hr⟩ | ⟨hx, hs⟩
        · exact .inl (Nat.succ_lt_succ hshort)
        · exact .inr (.inl ⟨rfl, List.forall_mem_cons.mpr ⟨hc, hall⟩, hr⟩)
        · exact .inr (.inr ⟨hx.trans (List.suffix_cons _ _), hs.trans (List.suffix_cons _ _)⟩)
      · rcases ih hrest with hshort | ⟨rfl, -, -⟩ | ⟨hx, hs⟩
        · refine .inl ?_
          rw [List.length_append]
          omega
        · refine .inl ?_
          rw [List.length_append]
          omega
        · exact .inr (.inr ⟨hx.trans (List.suffix_append _ _), hs.trans hsuffix⟩)
      · rw [eq_of_readString_append hplain hbehind hrest]
        exact .inr (.inr ⟨List.suffix_append _ _, List.suffix_refl _⟩)

/-- **A string that stands in quotes as it is, and is read back**, consists of plain bytes, if
plain bytes stand between its closing quote and the next one, or the end. -/
theorem readString_eq_self {plain behind : List UInt8} (hplain : ∀ c ∈ plain, isPlain c = true)
    (hne : plain ≠ []) (hbehind : behind = [] ∨ ∃ t, behind = 0x22 :: t)
    (h : readString n (s ++ 0x22 :: (plain ++ behind)) = some (s, rest)) :
    (∀ c ∈ s, isPlain c = true) ∧ rest = plain ++ behind := by
  rcases readString_cases hplain hbehind h with hshort | ⟨-, hall, hrest⟩ | ⟨hx, hs⟩
  · exact absurd hshort (Nat.lt_irrefl _)
  · exact ⟨hall, hrest⟩
  · -- the last byte would be a backslash and plain
    have hlast : [0x5C] <:+ plain := by
      refine List.suffix_of_suffix_length_le hs hx ?_
      exact List.length_pos_iff.mpr hne
    have hslash := hplain 0x5C (hlast.subset List.mem_cons_self)
    cases hslash

/-! ## Values, elements and members -/

variable {name : List UInt8} {v : Value}

theorem readValue_string (n : ℕ) (s : List UInt8) :
    readValue (n + 1) (0x22 :: s)
      = (readString s.length s).map fun (x, s) => (.string x, s) := by
  rw [readValue]
  rfl

theorem readValue_object (n : ℕ) (s : List UInt8) :
    readValue (n + 1) (0x7B :: 0x22 :: s)
      = (readMembers n (0x22 :: s)).map fun (ms, s) => (.object ms, s) := by
  rw [readValue]
  rfl

theorem readValue_array (n : ℕ) (s : List UInt8) :
    readValue (n + 1) (0x5B :: 0x7B :: s)
      = (readElements n (0x7B :: s)).map fun (vs, s) => (.array vs, s) := by
  rw [readValue]
  rfl

/-- What starts no other value is read as a number. -/
theorem readValue_number (hspace : isSpace c = false)
    (hc : c ≠ 0x22 ∧ c ≠ 0x5B ∧ c ≠ 0x7B ∧ c ≠ 0x74 ∧ c ≠ 0x66)
    (hn : c = 0x6E → s.head? ≠ some 0x75) (n : ℕ) :
    readValue (n + 1) (c :: s) = readNumber (c :: s) := by
  obtain ⟨hquote, hbracket, hbrace, htrue, hfalse⟩ := hc
  rw [readValue, skip, List.dropWhile_cons_of_neg (by rw [hspace]; exact Bool.false_ne_true)]
  split
  · exact absurd (List.cons.inj ‹_›).1 hquote
  · exact absurd (List.cons.inj ‹_›).1 hbracket
  · exact absurd (List.cons.inj ‹_›).1 hbrace
  · rename_i heq
    obtain ⟨rfl, rfl⟩ := List.cons.inj heq
    exact absurd rfl (hn rfl)
  · exact absurd (List.cons.inj ‹_›).1 htrue
  · exact absurd (List.cons.inj ‹_›).1 hfalse
  · rfl

/-- A number is read up to the byte that cannot belong to it. -/
theorem readNumber_append (hs : ∀ c ∈ s, isNumberByte c = true) (hc : isNumberByte c = false)
    (t : List UInt8) :
    readNumber (s ++ c :: t) = if isNumber s then some (.number s, c :: t) else none := by
  have htake : (s ++ c :: t).takeWhile isNumberByte = s := by
    rw [List.takeWhile_append_of_pos hs,
      List.takeWhile_cons_of_neg (by rw [hc]; exact Bool.false_ne_true), List.append_nil]
  have hdrop : (s ++ c :: t).dropWhile isNumberByte = c :: t := by
    rw [List.dropWhile_append_of_pos hs,
      List.dropWhile_cons_of_neg (by rw [hc]; exact Bool.false_ne_true)]
  rw [readNumber, htake, hdrop]

/-- The first value of the elements. -/
theorem exists_of_readElements {vs : List Value} (h : readElements (n + 1) s = some (vs, rest)) :
    ∃ v s' vs', readValue n s = some (v, s') ∧ vs = v :: vs' := by
  rw [readElements, Option.bind_eq_some_iff] at h
  obtain ⟨⟨v, s'⟩, hv, h⟩ := h
  refine ⟨v, s', ?_⟩
  dsimp only at h
  split at h
  · rw [Option.map_eq_some_iff] at h
    obtain ⟨⟨vs', t⟩, -, heq⟩ := h
    exact ⟨vs', hv, (Prod.mk.inj heq).1.symm⟩
  · exact ⟨[], hv, (Prod.mk.inj (Option.some.inj h)).1.symm⟩
  · cases h

theorem readElements_last (h : readValue n s = some (v, 0x5D :: t)) :
    readElements (n + 1) s = some ([v], t) := by
  rw [readElements, h]
  rfl

theorem readElements_more (h : readValue n s = some (v, 0x2C :: t)) :
    readElements (n + 1) s = (readElements n t).map fun (vs, s) => (v :: vs, s) := by
  rw [readElements, h]
  rfl

/-- The name of a member, if it is plain, and its value. -/
theorem readMembers_eq (hname : ∀ c ∈ name, isPlain c = true) (n : ℕ) (s : List UInt8) :
    readMembers (n + 1) (0x22 :: (name ++ 0x22 :: 0x3A :: s))
      = (readValue n s).bind fun (v, s) =>
        match skip s with
        | 0x2C :: s => (readMembers n s).map fun (ms, s) => ((name, v) :: ms, s)
        | 0x7D :: s => some ([(name, v)], s)
        | _ => none := by
  have hread := readString_append hname (n := (name ++ 0x22 :: 0x3A :: s).length)
    (by rw [List.length_append, List.length_cons]; omega) (0x3A :: s)
  rw [readMembers]
  show ((readString (name ++ 0x22 :: 0x3A :: s).length (name ++ 0x22 :: 0x3A :: s)).bind _) = _
  rw [hread]
  rfl

/-- The first member of an object. -/
theorem exists_of_readMembers (hname : ∀ c ∈ name, isPlain c = true)
    {ms : List (List UInt8 × Value)}
    (h : readMembers (n + 1) (0x22 :: (name ++ 0x22 :: 0x3A :: s)) = some (ms, rest)) :
    ∃ v s' ms', readValue n s = some (v, s') ∧ ms = (name, v) :: ms' := by
  rw [readMembers_eq hname, Option.bind_eq_some_iff] at h
  obtain ⟨⟨v, s'⟩, hv, h⟩ := h
  refine ⟨v, s', ?_⟩
  dsimp only at h
  split at h
  · rw [Option.map_eq_some_iff] at h
    obtain ⟨⟨ms', t⟩, -, heq⟩ := h
    exact ⟨ms', hv, (Prod.mk.inj heq).1.symm⟩
  · exact ⟨[], hv, (Prod.mk.inj (Option.some.inj h)).1.symm⟩
  · cases h

theorem readMembers_last (hname : ∀ c ∈ name, isPlain c = true)
    (h : readValue n s = some (v, 0x7D :: t)) :
    readMembers (n + 1) (0x22 :: (name ++ 0x22 :: 0x3A :: s)) = some ([(name, v)], t) := by
  rw [readMembers_eq hname, h]
  rfl

theorem readMembers_more (hname : ∀ c ∈ name, isPlain c = true)
    (h : readValue n s = some (v, 0x2C :: t)) :
    readMembers (n + 1) (0x22 :: (name ++ 0x22 :: 0x3A :: s))
      = (readMembers n t).map fun (ms, s) => ((name, v) :: ms, s) := by
  rw [readMembers_eq hname, h]
  rfl

end Json
