import HttpServer.FormData

/-!
# Escapes that are none

`urlDecode` of `application/http/http_request.cpp` leaves the reading of the two bytes behind a
percent sign to `std::strtol`, and takes them for an escape when all of the two has been read.
But `std::strtol` also skips blanks and reads a sign, so `% 5`, `%+5` and `%-5` are taken for
escapes like `%05`.

`formDecode` is the decoder that wants two hexadecimal digits. Where the two decoders part, the
bytes behind the percent sign are no percent signs, so they meet again right after them, and what
`urlDecode` returns is two bytes shorter each time.
-/

/-- **The reference decoder**: two hexadecimal digits behind a percent sign are a byte, a plus
sign is a blank, and every other byte stands for itself. -/
def formDecode : Bytes → Bytes
  | [] => []
  | c :: s =>
    if c = 0x25 then
      match s with
      | a :: b :: t =>
        match hexDigit a, hexDigit b with
        | some x, some y => (16 * x + y) :: formDecode t
        | _, _ => c :: formDecode (a :: b :: t)
      | s => c :: formDecode s
    else if c = 0x2B then 0x20 :: formDecode s
    else c :: formDecode s

/-- **A loose escape**: a percent sign, a blank or a sign, and a hexadecimal digit. -/
def startsLoose : Bytes → Bool
  | 0x25 :: a :: b :: _ =>
    (isSpace a || a == 0x2B || a == 0x2D) && (hexDigit b).isSome
  | _ => false

/-- The number of loose escapes in a string. -/
def looseEscapes (s : Bytes) : ℕ := s.tails.countP startsLoose

variable {a b c : UInt8} {s t : Bytes}

/-! ## Both digits of an escape -/

/-- What `std::strtol` skips or takes for a sign is no digit. -/
theorem hexDigit_eq_none_of_loose (h : (isSpace a || a == 0x2B || a == 0x2D) = true) :
    hexDigit a = none :=
  forall_byte (P := fun a => (isSpace a || a == 0x2B || a == 0x2D) = true → hexDigit a = none)
    (by decide +kernel) a h

/-- A hexadecimal digit is no percent sign. -/
theorem ne_percent_of_isSome (h : (hexDigit a).isSome) : a ≠ 0x25 := by
  rintro rfl
  cases h

/-- **What `std::strtol` reads to the end** is two digits or a loose escape. -/
theorem strtolHex_eq_some {v : UInt8} (h : strtolHex a b = some v) (t : Bytes) :
    (∃ x y, hexDigit a = some x ∧ hexDigit b = some y ∧ v = 16 * x + y
        ∧ startsLoose (0x25 :: a :: b :: t) = false)
      ∨ hexDigit a = none ∧ a ≠ 0x25 ∧ (hexDigit b).isSome
        ∧ startsLoose (0x25 :: a :: b :: t) = true := by
  unfold strtolHex at h
  cases ha : hexDigit a with
  | some x =>
    cases hb : hexDigit b with
    | some y =>
      refine .inl ⟨x, y, rfl, rfl, ?_, ?_⟩
      · rw [ha, hb] at h
        exact (Option.some.inj h).symm
      · refine Bool.eq_false_iff.mpr fun hloose => ?_
        have hnone := hexDigit_eq_none_of_loose (Bool.and_eq_true_iff.mp hloose).1
        rw [ha] at hnone
        cases hnone
    | none =>
      rw [ha, hb] at h
      cases h
  | none =>
    cases hb : hexDigit b with
    | some y =>
      rw [ha, hb] at h
      have hlead : (isSpace a || a == 0x2B || a == 0x2D) = true := by
        by_contra hlead
        obtain ⟨hspace, hminus⟩ := Bool.or_eq_false_iff.mp (Bool.eq_false_iff.mpr hlead)
        simp only [hspace, hminus, Bool.false_eq_true, if_false] at h
        cases h
      refine .inr ⟨rfl, ?_, rfl, ?_⟩
      · rintro rfl
        cases hlead
      · rw [startsLoose, hlead, hb]
        rfl
    | none =>
      rw [ha, hb] at h
      cases h

/-- What it does not read to the end is neither. -/
theorem strtolHex_eq_none (h : strtolHex a b = none) (t : Bytes) :
    (hexDigit a = none ∨ hexDigit b = none) ∧ startsLoose (0x25 :: a :: b :: t) = false := by
  unfold strtolHex at h
  cases hb : hexDigit b with
  | none =>
    refine ⟨.inr rfl, ?_⟩
    rw [startsLoose, hb, Option.isSome_none, Bool.and_false]
  | some y =>
    cases ha : hexDigit a with
    | some x =>
      rw [ha, hb] at h
      cases h
    | none =>
      rw [ha, hb] at h
      refine ⟨.inl rfl, Bool.eq_false_iff.mpr fun hloose => ?_⟩
      have hlead := (Bool.and_eq_true_iff.mp hloose).1
      dsimp only at h
      rcases Bool.or_eq_true_iff.mp hlead with hplus | hminus
      · rw [if_pos hplus] at h
        cases h
      · rw [if_pos hminus] at h
        split at h <;> cases h

/-! ## The decoders, byte by byte -/

/-- A byte that is no percent sign is read by itself. -/
theorem urlDecode_of_ne (hc : c ≠ 0x25) (s : Bytes) :
    urlDecode (c :: s) = (if c = 0x2B then 0x20 else c) :: urlDecode s := by
  rw [urlDecode.eq_def]
  dsimp only
  rw [if_neg hc]
  split <;> rfl

/-- A percent sign with less than two bytes behind it stands for itself. -/
theorem urlDecode_of_short (hshort : ∀ a b t, s = a :: b :: t → False) :
    urlDecode (0x25 :: s) = 0x25 :: urlDecode s := by
  rw [urlDecode.eq_def]
  dsimp only
  rw [if_pos rfl]
  split
  · exact (hshort _ _ _ rfl).elim
  · rfl

/-- The reference decoder does the same with it. -/
theorem formDecode_of_ne (hc : c ≠ 0x25) (s : Bytes) :
    formDecode (c :: s) = (if c = 0x2B then 0x20 else c) :: formDecode s := by
  rw [formDecode.eq_def]
  dsimp only
  rw [if_neg hc]
  split <;> rfl

/-- And so it does with a percent sign at the end. -/
theorem formDecode_of_short (hshort : ∀ a b t, s = a :: b :: t → False) :
    formDecode (0x25 :: s) = 0x25 :: formDecode s := by
  rw [formDecode.eq_def]
  dsimp only
  rw [if_pos rfl]
  split
  · exact (hshort _ _ _ rfl).elim
  · rfl

/-- Two digits are an escape. -/
theorem formDecode_of_digits {x y : UInt8} (ha : hexDigit a = some x) (hb : hexDigit b = some y)
    (t : Bytes) : formDecode (0x25 :: a :: b :: t) = (16 * x + y) :: formDecode t := by
  rw [formDecode.eq_def]
  dsimp only
  rw [if_pos rfl, ha, hb]

/-- Anything else is not, and the two bytes are read again. -/
theorem formDecode_of_not_digits (h : hexDigit a = none ∨ hexDigit b = none) (t : Bytes) :
    formDecode (0x25 :: a :: b :: t) = 0x25 :: formDecode (a :: b :: t) := by
  rw [formDecode.eq_def]
  dsimp only
  rw [if_pos rfl]
  rcases h with ha | hb
  · rw [ha]
  · rw [hb]
    cases hexDigit a <;> rfl

/-! ## Counting the loose escapes -/

/-- A loose escape is counted where it starts. -/
theorem looseEscapes_cons (c : UInt8) (s : Bytes) :
    looseEscapes (c :: s) = looseEscapes s + if startsLoose (c :: s) then 1 else 0 := by
  rw [looseEscapes, List.tails_cons, List.countP_cons]
  rfl

theorem looseEscapes_of_false (h : startsLoose (c :: s) = false) :
    looseEscapes (c :: s) = looseEscapes s := by
  rw [looseEscapes_cons, h]
  rfl

/-- It starts with a percent sign. -/
theorem looseEscapes_of_ne (hc : c ≠ 0x25) (s : Bytes) :
    looseEscapes (c :: s) = looseEscapes s := by
  refine looseEscapes_of_false ?_
  unfold startsLoose
  split
  · rename_i heq
    exact (hc (List.cons.inj heq).1).elim
  · rfl

/-- And it has two bytes behind that. -/
theorem looseEscapes_of_short (hshort : ∀ a b t, s = a :: b :: t → False) :
    looseEscapes (0x25 :: s) = looseEscapes s := by
  refine looseEscapes_of_false ?_
  unfold startsLoose
  split
  · rename_i heq
    exact (hshort _ _ _ (List.cons.inj heq).2).elim
  · rfl

/-! ## Where the decoders part -/

/-- **One step of both decoders**, at the front of a string: the same byte and the same rest, or
a loose escape, which the reference decoder copies. -/
theorem urlDecode_step (s : Bytes) :
    s = []
      ∨ (∃ v t, t.length < s.length ∧ urlDecode s = v :: urlDecode t
          ∧ formDecode s = v :: formDecode t ∧ looseEscapes s = looseEscapes t)
      ∨ ∃ v a b t, t.length < s.length ∧ urlDecode s = v :: urlDecode t
          ∧ formDecode s = 0x25 :: a :: b :: formDecode t
          ∧ looseEscapes s = looseEscapes t + 1 := by
  rcases s with - | ⟨c, s⟩
  · exact .inl rfl
  refine .inr ?_
  have hlength : s.length < (c :: s).length := Nat.lt_succ_self _
  by_cases hc : c = 0x25
  · subst hc
    by_cases hshort : ∀ a b t, s = a :: b :: t → False
    · exact .inl ⟨_, s, hlength, urlDecode_of_short hshort, formDecode_of_short hshort,
        looseEscapes_of_short hshort⟩
    obtain ⟨a, b, t, rfl⟩ : ∃ a b t, s = a :: b :: t := by
      by_contra hlong
      exact hshort fun a b t heq => hlong ⟨a, b, t, heq⟩
    have ht : t.length < (0x25 :: a :: b :: t).length := by
      simp only [List.length_cons]
      omega
    cases hread : strtolHex a b with
    | none =>
      obtain ⟨hdigits, hloose⟩ := strtolHex_eq_none hread t
      refine .inl ⟨0x25, _, hlength, ?_, formDecode_of_not_digits hdigits t,
        looseEscapes_of_false hloose⟩
      rw [urlDecode, if_pos rfl, hread]
    | some v =>
      have hcode : urlDecode (0x25 :: a :: b :: t) = v :: urlDecode t := by
        rw [urlDecode, if_pos rfl, hread]
      rcases strtolHex_eq_some hread t with ⟨x, y, ha, hb, rfl, hloose⟩ | ⟨ha, hne, hb, hloose⟩
      · have hane : a ≠ 0x25 := ne_percent_of_isSome (by rw [ha]; rfl)
        have hbne : b ≠ 0x25 := ne_percent_of_isSome (by rw [hb]; rfl)
        refine .inl ⟨_, t, ht, hcode, formDecode_of_digits ha hb t, ?_⟩
        rw [looseEscapes_of_false hloose, looseEscapes_of_ne hane, looseEscapes_of_ne hbne]
      · have hbne : b ≠ 0x25 := ne_percent_of_isSome hb
        refine .inr ⟨v, if a = 0x2B then 0x20 else a, if b = 0x2B then 0x20 else b, t, ht, hcode,
          ?_, ?_⟩
        · rw [formDecode_of_not_digits (.inl ha), formDecode_of_ne hne, formDecode_of_ne hbne]
        · rw [looseEscapes_cons, hloose, looseEscapes_of_ne hne, looseEscapes_of_ne hbne]
          rfl
  · exact .inl ⟨_, s, hlength, urlDecode_of_ne hc s, formDecode_of_ne hc s,
      looseEscapes_of_ne hc s⟩

/-- **Two bytes are lost at each loose escape**, and at no other place. -/
theorem length_formDecode (s : Bytes) :
    (formDecode s).length = (urlDecode s).length + 2 * looseEscapes s := by
  induction hn : s.length using Nat.strongRecOn generalizing s with
  | _ n ih =>
    subst hn
    rcases urlDecode_step s with rfl | ⟨v, t, ht, hcode, href, hloose⟩
      | ⟨v, a, b, t, ht, hcode, href, hloose⟩
    · rfl
    · rw [hcode, href, hloose, List.length_cons, List.length_cons, ih _ ht t rfl]
      omega
    · rw [hcode, href, hloose]
      simp only [List.length_cons, ih _ ht t rfl]
      omega

/-- Without loose escapes the decoders agree. -/
theorem urlDecode_eq_formDecode_of (s : Bytes) (hs : looseEscapes s = 0) :
    urlDecode s = formDecode s := by
  induction hn : s.length using Nat.strongRecOn generalizing s with
  | _ n ih =>
    subst hn
    rcases urlDecode_step s with rfl | ⟨v, t, ht, hcode, href, hloose⟩
      | ⟨v, a, b, t, ht, hcode, href, hloose⟩
    · rfl
    · rw [hcode, href, ih _ ht t (by rw [← hloose, hs]) rfl]
    · omega

/-- **`urlDecode` is the reference decoder exactly on the strings without loose escapes**: no
percent sign stands before a blank or a sign and a hexadecimal digit. -/
theorem urlDecode_eq_formDecode_iff (s : Bytes) :
    urlDecode s = formDecode s ↔ looseEscapes s = 0 := by
  refine ⟨fun heq => ?_, urlDecode_eq_formDecode_of s⟩
  have hlength := length_formDecode s
  rw [heq] at hlength
  omega

/-- The sign in `%+5` is read like a digit. -/
theorem urlDecode_reads_sign :
    urlDecode (lit "%+5") = [0x05] ∧ formDecode (lit "%+5") = lit "% 5"
      ∧ urlDecode (lit "%+5") ≠ formDecode (lit "%+5") := by
  decide +kernel
