import HttpServer.SerialisedRequest

/-!
# The texts that `std::stoi` reads

`std::stoi` skips blanks, takes a sign and the digits behind it, and does not look at what follows
them. `IntText` is the grammar of what it accepts, with the number that such a text denotes, and
`stoi_eq_ok_iff` says that there is nothing else.
-/

/-- What `strtol` reads in base 10: whether there is a minus sign, and the digits. -/
def signAndDigits (s : Bytes) : Bool × Bytes :=
  match s.dropWhile isSpace with
  | 0x2D :: t => (true, t.takeWhile isDigit)
  | 0x2B :: t => (false, t.takeWhile isDigit)
  | t => (false, t.takeWhile isDigit)

/-- A number from its sign and its digits. -/
def signed (negative : Bool) (digits : Bytes) : ℤ :=
  if negative then -(decimal digits : ℤ) else decimal digits

/-- The range of an `int`, from `INT_MIN` to `INT_MAX`. -/
def InIntRange (n : ℤ) : Prop := -2147483648 ≤ n ∧ n ≤ 2147483647

instance : DecidablePred InIntRange := fun _ => inferInstanceAs (Decidable (_ ∧ _))

/-- `std::stoi`. A NUL ends the text for it, as does every byte that is no digit. -/
def stoi (s : Bytes) : Except StdException ℤ :=
  let (negative, digits) := signAndDigits s
  if digits.isEmpty then .error .invalidArgument
  else if InIntRange (signed negative digits) then .ok (signed negative digits)
  else .error .outOfRange

/-- **A text that begins with a number**: blanks, a sign if there is one, digits, and something
that does not begin with a digit. -/
def IntText (s : Bytes) (n : ℤ) : Prop :=
  ∃ blanks sign digits rest, s = blanks ++ (sign ++ (digits ++ rest))
    ∧ (∀ c ∈ blanks, isSpace c = true) ∧ sign ∈ [[], lit "+", lit "-"]
    ∧ digits ≠ [] ∧ (∀ c ∈ digits, isDigit c = true) ∧ (∀ c ∈ rest.head?, isDigit c = false)
    ∧ n = signed (sign = lit "-") digits

/-- **The parts of such a text are found.** -/
theorem signAndDigits_of_parts {blanks sign digits rest : Bytes}
    (hblanks : ∀ c ∈ blanks, isSpace c = true) (hsign : sign ∈ [[], lit "+", lit "-"])
    (hne : digits ≠ []) (hdigits : ∀ c ∈ digits, isDigit c = true)
    (hrest : ∀ c ∈ rest.head?, isDigit c = false) :
    signAndDigits (blanks ++ (sign ++ (digits ++ rest))) = (decide (sign = lit "-"), digits) := by
  have htake := takeWhile_isDigit_append hdigits hrest
  unfold signAndDigits
  rw [List.dropWhile_append_of_pos hblanks]
  simp only [List.mem_cons, List.not_mem_nil, or_false] at hsign
  rcases hsign with rfl | rfl | rfl
  · -- no sign: the first digit is neither a blank nor one
    obtain ⟨d, digits, rfl⟩ := List.exists_cons_of_ne_nil hne
    obtain ⟨hspace, hminus, hplus⟩ := isSpace_of_isDigit (hdigits d List.mem_cons_self)
    rw [List.nil_append, List.cons_append, List.dropWhile_cons_of_neg (by simp [hspace])]
    rw [List.cons_append] at htake
    split
    · rename_i h
      exact absurd (List.cons.inj h).1 hminus
    · rename_i h
      exact absurd (List.cons.inj h).1 hplus
    · rw [htake]
      rfl
  · change ((false, (digits ++ rest).takeWhile isDigit) : Bool × Bytes) = _
    rw [htake]
    rfl
  · change ((true, (digits ++ rest).takeWhile isDigit) : Bool × Bytes) = _
    rw [htake]
    rfl

/-- **There are such parts** wherever digits are found. -/
theorem exists_parts (s : Bytes) :
    ∃ blanks sign rest, s = blanks ++ (sign ++ ((signAndDigits s).2 ++ rest))
      ∧ (∀ c ∈ blanks, isSpace c = true) ∧ sign ∈ [[], lit "+", lit "-"]
      ∧ (∀ c ∈ (signAndDigits s).2, isDigit c = true) ∧ (∀ c ∈ rest.head?, isDigit c = false)
      ∧ (signAndDigits s).1 = decide (sign = lit "-") := by
  have hblanks : ∀ c ∈ s.takeWhile isSpace, isSpace c = true := fun c => List.mem_takeWhile_imp
  have hdigits (t : Bytes) : ∀ c ∈ t.takeWhile isDigit, isDigit c = true :=
    fun c => List.mem_takeWhile_imp
  have hrest (t : Bytes) : ∀ c ∈ (t.dropWhile isDigit).head?, isDigit c = false := by
    intro c hc
    have hnot := List.head?_dropWhile_not isDigit t
    rw [Option.mem_def.mp hc] at hnot
    exact hnot
  have hs : s = s.takeWhile isSpace ++ s.dropWhile isSpace := List.takeWhile_append_dropWhile.symm
  unfold signAndDigits
  split
  · rename_i t ht
    refine ⟨_, lit "-", t.dropWhile isDigit, ?_, hblanks, by decide, hdigits t, hrest t, rfl⟩
    rw [List.takeWhile_append_dropWhile]
    exact hs.trans (congrArg _ ht)
  · rename_i t ht
    refine ⟨_, lit "+", t.dropWhile isDigit, ?_, hblanks, by decide, hdigits t, hrest t, rfl⟩
    rw [List.takeWhile_append_dropWhile]
    exact hs.trans (congrArg _ ht)
  · refine ⟨_, [], (s.dropWhile isSpace).dropWhile isDigit, ?_, hblanks, by decide, hdigits _,
      hrest _, rfl⟩
    rw [List.takeWhile_append_dropWhile]
    exact hs

/-- **What `std::stoi` accepts.** -/
theorem stoi_eq_ok_iff {s : Bytes} {n : ℤ} : stoi s = .ok n ↔ IntText s n ∧ InIntRange n := by
  constructor
  · intro h
    obtain ⟨blanks, sign, rest, hs, hblanks, hsign, hdigits, hrest, hminus⟩ := exists_parts s
    unfold stoi at h
    dsimp only at h
    by_cases hempty : (signAndDigits s).2.isEmpty
    · rw [if_pos hempty] at h
      cases h
    · rw [if_neg hempty] at h
      split at h
      · rename_i hrange
        cases h
        refine ⟨⟨blanks, sign, _, rest, hs, hblanks, hsign, ?_, hdigits, hrest, ?_⟩, hrange⟩
        · exact fun hnil => hempty (List.isEmpty_iff.mpr hnil)
        · rw [← hminus]
      · cases h
  · rintro ⟨⟨blanks, sign, digits, rest, rfl, hblanks, hsign, hne, hdigits, hrest, rfl⟩, hrange⟩
    unfold stoi
    rw [signAndDigits_of_parts hblanks hsign hne hdigits hrest]
    dsimp only
    rw [if_neg fun h => hne (List.isEmpty_iff.mp h), if_pos hrange]

/-- **Digits are read as the number that they denote.** -/
theorem intText_of_digits {s : Bytes} (hne : s ≠ []) (hdigits : ∀ c ∈ s, isDigit c = true) :
    IntText s (decimal s) := by
  refine ⟨[], [], s, [], ?_, by simp, by decide, hne, hdigits, by simp, rfl⟩
  rw [List.append_nil]
  rfl

/-- A text denotes one number. -/
theorem IntText.unique {s : Bytes} {n m : ℤ} (hn : IntText s n) (hm : IntText s m) : n = m := by
  obtain ⟨blanks, sign, digits, rest, rfl, hblanks, hsign, hne, hdigits, hrest, rfl⟩ := hn
  obtain ⟨_, _, _, _, hs, hblanks', hsign', hne', hdigits', hrest', rfl⟩ := hm
  have hparts := signAndDigits_of_parts hblanks' hsign' hne' hdigits' hrest'
  rw [← hs, signAndDigits_of_parts hblanks hsign hne hdigits hrest, Prod.mk.injEq] at hparts
  rw [hparts.1, hparts.2]
