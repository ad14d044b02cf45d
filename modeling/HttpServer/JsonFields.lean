import HttpServer.FormData
import HttpServer.Json
import HttpServer.ParseHttpRequest
import HttpServer.QuotedText
import Mathlib.Data.List.DropRight

/-!
# Looking up the fields of a JSON object

`findJsonValue` of `application/http/handler/SpeedTestApi.cpp` and `extractJsonString` of
`application/websocket/speedtest_ws_handler.cpp`. Both search the text of an object for the key in
quotes, then for a colon, and take the value that stands behind it.

The objects are flat: their values are strings and numbers (`FlatObject`), written without white
space. In such a text the key in quotes is not always where its member is. It may be a string
value, or what stands between the quotes of two strings, and a colon may be part of a key.
`firstPlace` says where the key in quotes first stands, and `Place.Yields` what comes of it. The
key may have quotes itself, although no member has such a name.
-/

/-! ## The source -/

/-- A byte that ends a value without quotes. -/
def endsValue (c : UInt8) : Bool := c == 0x2C || c == 0x7D

/-- What both functions come to first: the text behind the colon that follows the key in quotes,
without blanks in front. -/
def valueBehind (body key : Bytes) : Option Bytes :=
  (Search.find (0x22 :: key ++ [0x22]) body).bind fun pos =>
    (Search.find [0x3A] (body.drop pos)).map fun colon =>
      (body.drop (pos + (colon + 1))).dropWhile isBlank

/-- `findJsonValue`. -/
def findJsonValue (body key : Bytes) : Bytes :=
  match valueBehind body key with
  | none => []
  | some (0x22 :: s) => s.takeWhile (· ≠ 0x22)
  | some s => s.takeWhile fun c => !endsValue c

/-- `extractJsonString`. -/
def extractJsonString (json key : Bytes) : Bytes :=
  match valueBehind json key with
  | none => []
  | some (0x22 :: s) => if 0x22 ∈ s then s.takeWhile (· ≠ 0x22) else []
  | some s => (s.takeWhile fun c => !endsValue c).rdropWhile isBlank

/-! ## Flat objects -/

/-- A value of a flat object: a string, or a number by its text. -/
inductive FlatValue
  | string (contents : Bytes)
  | number (text : Bytes)
  deriving DecidableEq

/-- A byte of a number. -/
def isNumberByte (c : UInt8) : Bool :=
  isDigit c || c == 0x2B || c == 0x2D || c == 0x2E || c == 0x45 || c == 0x65

namespace FlatValue

/-- No quote and no backslash in a string, and a number in the text of a number. -/
def WellFormed : FlatValue → Prop
  | string s => 0x22 ∉ s ∧ 0x5C ∉ s
  | number t => t ≠ [] ∧ ∀ c ∈ t, isNumberByte c = true

instance (v : FlatValue) : Decidable v.WellFormed :=
  match v with
  | string s => inferInstanceAs (Decidable (0x22 ∉ s ∧ 0x5C ∉ s))
  | number t => inferInstanceAs (Decidable (t ≠ [] ∧ ∀ c ∈ t, isNumberByte c = true))

/-- The contents of a string, and the text of a number. -/
def contents : FlatValue → Bytes
  | string s => s
  | number t => t

/-- What is written of a value, between the quotes if it has any. -/
def text : FlatValue → Bytes
  | string s => Json.escape s
  | number t => t

/-- A value as it is written. -/
def literal : FlatValue → Bytes
  | string s => 0x22 :: (Json.escape s ++ [0x22])
  | number t => t

end FlatValue

/-- A member, as it is written. -/
def memberText (m : Bytes × FlatValue) : Bytes :=
  0x22 :: (Json.escape m.1 ++ [0x22, 0x3A] ++ m.2.literal)

/-- **The text of an object**, as `JSON.stringify` writes it. -/
def stringify (members : List (Bytes × FlatValue)) : Bytes :=
  0x7B :: ([0x2C].intercalate (members.map memberText) ++ [0x7D])

/-- **A flat object**: distinct keys, and neither quotes nor backslashes in keys and strings. -/
structure FlatObject where
  members : List (Bytes × FlatValue)
  keys_nodup : (members.map Prod.fst).Nodup
  key_noQuote : ∀ m ∈ members, 0x22 ∉ m.1 ∧ 0x5C ∉ m.1
  value_wellFormed : ∀ m ∈ members, m.2.WellFormed

/-- **What the functions should return**: the value of the key, or the empty string. -/
def FlatObject.valueOf (o : FlatObject) (key : Bytes) : Bytes :=
  match o.members.find? fun m => m.1 = key with
  | some m => m.2.contents
  | none => []

/-! ## Where the key in quotes stands -/

/-- What follows a value. -/
def separator (rest : List (Bytes × FlatValue)) : Bytes := if rest = [] then [0x7D] else [0x2C]

/-- The segments from the closing quote of a name on. -/
def FlatValue.segments (rest : List (Bytes × FlatValue)) (behind : List Bytes) :
    FlatValue → List Bytes
  | string s => [0x3A] :: Json.escape s :: separator rest :: behind
  | number t => (0x3A :: (t ++ separator rest)) :: behind

/-- The segments of the members, from the first name on. -/
def segments : List (Bytes × FlatValue) → List Bytes
  | [] => []
  | (name, value) :: rest => Json.escape name :: value.segments rest (segments rest)

/-- A place in the text of an object where a key may stand in quotes. -/
inductive Place
  /-- There is none. -/
  | nowhere
  /-- It begins with a name, which has this value and these members behind it. -/
  | inName (name : Bytes) (value : FlatValue) (rest : List (Bytes × FlatValue))
  /-- It begins with what stands between the quotes of a name and the next quote. -/
  | behindName (value : FlatValue) (rest : List (Bytes × FlatValue))
  /-- It begins with a string value. -/
  | inValue (text : Bytes) (rest : List (Bytes × FlatValue))
  /-- It begins with what stands between a string value and the next quote. -/
  | behindValue (rest : List (Bytes × FlatValue))

/-- What stands between the closing quote of a name and the next quote, if there is one. -/
def FlatValue.gap (rest : List (Bytes × FlatValue)) : FlatValue → Option Bytes
  | string _ => some [0x3A]
  | number t => if rest = [] then none else some (0x3A :: (t ++ [0x2C]))

/-- **Where a key first stands in quotes.** A key is split at its own quotes, and its pieces have
to be what stands there between one quote and the next. -/
def firstPlace (pieces : List Bytes) : List (Bytes × FlatValue) → Place
  | [] => .nowhere
  | (name, value) :: rest =>
    let behind := value.segments rest (segments rest)
    if QuotedText.Stands pieces (Json.escape name :: behind) then
      .inName (Json.escape name) value rest
    else if QuotedText.Stands pieces behind then .behindName value rest
    else match value with
      | .string s =>
        let behind := separator rest :: segments rest
        if QuotedText.Stands pieces (Json.escape s :: behind) then .inValue (Json.escape s) rest
        else if QuotedText.Stands pieces behind then .behindValue rest
        else firstPlace pieces rest
      | .number _ => firstPlace pieces rest

/-- What stands behind the first colon. -/
def afterColon (s : Bytes) : Bytes := (s.dropWhile (· ≠ 0x3A)).tail

/-- **A value that is cut out of the middle of a string**: `tail` is what is left of the string,
and `gap` stands between its closing quote and the next one. -/
def CutOut (value tail : Bytes) (gap : Option Bytes) : Prop :=
  let b := tail.dropWhile isBlank
  if b = [] then gap = some value
  else (∃ c ∈ b, endsValue c = true) ∧ (b.takeWhile fun c => !endsValue c) = value
    ∧ value.rdropWhile isBlank = value

/-- A value that is read at a member: its own value, unless there is a colon in the name. -/
def ReadsMember (value name : Bytes) (v : FlatValue) (rest : List (Bytes × FlatValue)) : Prop :=
  if 0x3A ∈ name then CutOut value (afterColon name) (v.gap rest) else v.text = value

/-- A value that is read at the member that comes next, if there is one. -/
def ReadsNext (value : Bytes) : List (Bytes × FlatValue) → Prop
  | [] => value = []
  | (name, v) :: rest => ReadsMember value (Json.escape name) v rest

/-- **What both functions make of the place** where they find the key in quotes. -/
def Place.Yields (value : Bytes) : Place → Prop
  | nowhere => value = []
  | inName name v rest => ReadsMember value name v rest
  | behindName v _ => v.text = value
  | inValue text rest =>
    if 0x3A ∈ text then CutOut value (afterColon text) (if rest = [] then none else some [0x2C])
    else ReadsNext value rest
  | behindValue rest => ReadsNext value rest

/-! ## The text as segments -/

theorem segments_eq_nil_iff (members : List (Bytes × FlatValue)) :
    segments members = [] ↔ members = [] := by
  cases members with
  | nil => exact iff_of_true rfl rfl
  | cons m rest => exact iff_of_false nofun nofun

/-- The members and the closing brace are the segments, joined. -/
theorem intercalate_eq_join {members : List (Bytes × FlatValue)} (hne : members ≠ []) :
    [0x2C].intercalate (members.map memberText) ++ [0x7D]
      = 0x22 :: QuotedText.join 0x22 (segments members) := by
  induction members with
  | nil => exact absurd rfl hne
  | cons m rest ih =>
    obtain ⟨name, value⟩ := m
    have hrest : [0x2C].intercalate (((name, value) :: rest).map memberText) ++ [0x7D]
        = memberText (name, value)
          ++ QuotedText.join 0x22 (separator rest :: segments rest) := by
      cases rest with
      | nil => simp [List.intercalate, QuotedText.join, separator, segments]
      | cons m' rest =>
        have hne' : m' :: rest ≠ [] := List.cons_ne_nil _ _
        rw [QuotedText.join_cons _ (mt (segments_eq_nil_iff _).mp hne'), ← ih hne', separator,
          if_neg hne']
        simp [List.intercalate]
    rw [hrest]
    cases value with
    | string s =>
      simp [memberText, FlatValue.literal, segments, FlatValue.segments, QuotedText.join]
    | number t =>
      dsimp only [segments, FlatValue.segments]
      rw [QuotedText.join]
      by_cases hnil : rest = []
      · subst hnil
        simp [memberText, FlatValue.literal, segments, QuotedText.join]
      · have hseg := mt (segments_eq_nil_iff _).mp hnil
        rw [QuotedText.join_cons _ hseg, QuotedText.join_cons _ hseg]
        simp [memberText, FlatValue.literal]

/-- **The text of an object is its segments, joined.** -/
theorem stringify_eq_join (members : List (Bytes × FlatValue)) :
    ∃ g, 0x22 ∉ g ∧ stringify members = QuotedText.join 0x22 (g :: segments members) := by
  by_cases hnil : members = []
  · subst hnil
    exact ⟨[0x7B, 0x7D], by decide, rfl⟩
  · refine ⟨[0x7B], by decide, ?_⟩
    rw [stringify, intercalate_eq_join hnil,
      QuotedText.join_cons _ (mt (segments_eq_nil_iff _).mp hnil)]
    rfl

/-- The segments from a place on. -/
def Place.found : Place → Option (List Bytes)
  | nowhere => none
  | inName name v rest => some (name :: v.segments rest (segments rest))
  | behindName v rest => some (v.segments rest (segments rest))
  | inValue text rest => some (text :: separator rest :: segments rest)
  | behindValue rest => some (separator rest :: segments rest)

/-- **The first place of a key is where its pieces are found.** -/
theorem fromWords_segments (pieces : List Bytes) (members : List (Bytes × FlatValue)) :
    QuotedText.fromWords pieces (segments members) = (firstPlace pieces members).found := by
  induction members with
  | nil => rfl
  | cons m rest ih =>
    obtain ⟨name, value⟩ := m
    rw [segments, firstPlace.eq_def, QuotedText.fromWords]
    dsimp only
    by_cases hname : QuotedText.Stands pieces
        (Json.escape name :: value.segments rest (segments rest))
    · rw [if_pos hname, if_pos hname]
      rfl
    rw [if_neg hname, if_neg hname]
    cases value with
    | string s =>
      rw [FlatValue.segments, QuotedText.fromWords, QuotedText.fromWords, QuotedText.fromWords, ih]
      dsimp only
      split_ifs <;> rfl
    | number t =>
      rw [FlatValue.segments, QuotedText.fromWords, ih]
      split_ifs <;> rfl

/-! ## Reading a value -/

/-- The first of some segments, if there is a quote behind it. -/
def nextQuoted : List Bytes → Option Bytes
  | s :: _ :: _ => some s
  | _ => none

theorem gap_eq_nextQuoted (v : FlatValue) (rest : List (Bytes × FlatValue)) :
    v.gap rest = nextQuoted (v.segments rest (segments rest)) := by
  cases v with
  | string s => rfl
  | number t =>
    by_cases hnil : rest = []
    · subst hnil
      rfl
    · obtain ⟨s, behind, hseg⟩ :=
        List.exists_cons_of_ne_nil (mt (segments_eq_nil_iff rest).mp hnil)
      simp [FlatValue.gap, FlatValue.segments, hseg, nextQuoted, separator, hnil]

/-- What stands behind the colon that both functions come to. -/
theorem valueBehind_join {g key : Bytes} {segs : List Bytes} (hg : 0x22 ∉ g)
    (hsegs : ∀ s ∈ segs, 0x22 ∉ s) :
    valueBehind (QuotedText.join 0x22 (g :: segs)) key
      = ((QuotedText.fromWords (key.splitOn 0x22) segs).bind (QuotedText.behind 0x3A)).map
        fun found => (QuotedText.join 0x22 (found.1 :: found.2)).dropWhile isBlank := by
  have hquoted := QuotedText.find_quoted (List.splitOn_ne_nil 0x22 key)
    (fun _ => QuotedText.notMem_of_mem_splitOn) hsegs hg
  rw [QuotedText.join_eq_intercalate (key.splitOn 0x22), List.intercalate_splitOn] at hquoted
  unfold valueBehind
  cases hword : QuotedText.fromWords (key.splitOn 0x22) segs with
  | none =>
    rw [hword] at hquoted
    dsimp only at hquoted
    rw [hquoted]
    rfl
  | some found =>
    rw [hword] at hquoted
    obtain ⟨pos, hpos, hdrop⟩ := hquoted
    have hcolon := QuotedText.find_symbol (q := (0x22 : UInt8)) (c := 0x3A) (by decide) found
    have hskip : Search.find [0x3A] ((QuotedText.join 0x22 (g :: segs)).drop pos)
        = (Search.find [0x3A] (QuotedText.join 0x22 found)).map (· + 1) := by
      rw [hdrop]
      exact Search.find_append_of_notMem (a := [0x22]) (by decide) _
    rw [hpos, Option.bind_some, Option.bind_some, hskip]
    cases hbehind : QuotedText.behind 0x3A found with
    | none =>
      rw [hbehind] at hcolon
      dsimp only at hcolon
      rw [hcolon]
      rfl
    | some tail =>
      rw [hbehind] at hcolon
      obtain ⟨i, hi, htail⟩ := hcolon
      rw [hi, Option.map_some, Option.map_some, Option.map_some, ← List.drop_drop, hdrop,
        List.drop_succ_cons, htail]

/-- Both functions return this value. -/
def BothReturn (body key value : Bytes) : Prop :=
  findJsonValue body key = value ∧ extractJsonString body key = value

variable {body key value tail : Bytes} {rest : List Bytes}

theorem bothReturn_of_none (hbehind : valueBehind body key = none) :
    BothReturn body key value ↔ value = [] := by
  unfold BothReturn findJsonValue extractJsonString
  rw [hbehind]
  constructor
  · rintro ⟨h, -⟩
    exact h.symm
  · rintro rfl
    exact ⟨rfl, rfl⟩

/-- What ends a value ends it, whatever follows. -/
theorem takeWhile_append_of_stop {s : Bytes} (hstop : ∃ c ∈ s, endsValue c = true) (t : Bytes) :
    (s ++ t).takeWhile (fun c => !endsValue c) = s.takeWhile fun c => !endsValue c := by
  induction s with
  | nil =>
    obtain ⟨c, hc, -⟩ := hstop
    cases hc
  | cons c s ih =>
    cases hc : endsValue c with
    | true =>
      rw [List.cons_append, List.takeWhile_cons_of_neg (by simp [hc]),
        List.takeWhile_cons_of_neg (by simp [hc])]
    | false =>
      obtain ⟨d, hd, hends⟩ := hstop
      have hmem : d ∈ s := by
        rcases List.mem_cons.mp hd with rfl | hmem
        · rw [hc] at hends
          cases hends
        · exact hmem
      rw [List.cons_append, List.takeWhile_cons_of_pos (by simp [hc]),
        List.takeWhile_cons_of_pos (by simp [hc]), ih ⟨d, hmem, hends⟩]

/-- A value in quotes. -/
theorem bothReturn_of_quote {s : Bytes} (hbehind : valueBehind body key = some (0x22 :: s)) :
    BothReturn body key value
      ↔ s.takeWhile (· ≠ 0x22) = value
        ∧ (if 0x22 ∈ s then s.takeWhile (· ≠ 0x22) else []) = value := by
  unfold BothReturn findJsonValue extractJsonString
  rw [hbehind]
  exact Iff.rfl

/-- A value without quotes, as the first function reads it. -/
theorem findJsonValue_of_ne {s : Bytes} (hs : s.head? ≠ some 0x22)
    (hbehind : valueBehind body key = some s) :
    findJsonValue body key = s.takeWhile fun c => !endsValue c := by
  unfold findJsonValue
  rw [hbehind]
  split
  · rename_i heq
    cases heq
  · rename_i heq
    rw [Option.some.inj heq] at hs
    exact absurd rfl hs
  · rename_i heq
    rw [Option.some.inj heq]

/-- A value without quotes, as the second one reads it. -/
theorem extractJsonString_of_ne {s : Bytes} (hs : s.head? ≠ some 0x22)
    (hbehind : valueBehind body key = some s) :
    extractJsonString body key = (s.takeWhile fun c => !endsValue c).rdropWhile isBlank := by
  unfold extractJsonString
  rw [hbehind]
  split
  · rename_i heq
    cases heq
  · rename_i heq
    rw [Option.some.inj heq] at hs
    exact absurd rfl hs
  · rename_i heq
    rw [Option.some.inj heq]

/-- A value without quotes. -/
theorem bothReturn_of_ne {c : UInt8} {s : Bytes} (hc : c ≠ 0x22)
    (hbehind : valueBehind body key = some (c :: s)) :
    BothReturn body key value
      ↔ (c :: s).takeWhile (fun c => !endsValue c) = value ∧ value.rdropWhile isBlank = value := by
  have hhead : (c :: s).head? ≠ some 0x22 := fun h => hc (Option.some.inj h)
  unfold BothReturn
  rw [findJsonValue_of_ne hhead hbehind, extractJsonString_of_ne hhead hbehind]
  constructor
  · rintro ⟨rfl, hblank⟩
    exact ⟨rfl, hblank⟩
  · rintro ⟨rfl, hblank⟩
    exact ⟨rfl, hblank⟩

/-- What stands between the string and the colon is blank: the value starts at the quote. -/
theorem bothReturn_of_blank
    (hbehind : valueBehind body key
      = some ((QuotedText.join 0x22 (tail :: rest)).dropWhile isBlank))
    (hrest : ∀ s ∈ rest, 0x22 ∉ s) (hend : rest = [] → 0x7D ∈ tail)
    (hone : ∀ t, rest = [t] → t ≠ []) (hblank : tail.dropWhile isBlank = []) :
    BothReturn body key value ↔ nextQuoted rest = some value := by
  have hall := List.dropWhile_eq_nil_iff.mp hblank
  cases rest with
  | nil => exact absurd (hall _ (hend rfl)) (by decide)
  | cons t more =>
    have hquote : (0x22 : UInt8) ∉ t := hrest t List.mem_cons_self
    rw [QuotedText.join, List.dropWhile_append_of_pos hall,
      List.dropWhile_cons_of_neg (by decide)] at hbehind
    rw [bothReturn_of_quote hbehind]
    cases more with
    | nil =>
      -- no quote behind: one function reads to the end, the other returns nothing
      have hshort : t.takeWhile (· ≠ 0x22) = t := by
        refine List.takeWhile_eq_self_iff.mpr fun c hc => decide_eq_true ?_
        rintro rfl
        exact hquote hc
      rw [QuotedText.join, if_neg hquote, hshort]
      refine iff_of_false ?_ fun h => by cases h
      rintro ⟨hfind, hnil⟩
      exact hone t rfl (hfind.trans hnil.symm)
    | cons u more =>
      have hspan := (QuotedText.span_append hquote (QuotedText.join 0x22 (u :: more))).1
      have hmem : (0x22 : UInt8) ∈ QuotedText.join 0x22 (t :: u :: more) := by
        rw [QuotedText.join]
        exact List.mem_append_right _ List.mem_cons_self
      rw [if_pos hmem, QuotedText.join, hspan, and_self]
      exact ⟨fun h => congrArg some h, fun h => Option.some.inj h⟩

/-- The blanks in front of a string that is not blank are dropped inside it. -/
theorem dropWhile_join_of_ne_nil (hblank : tail.dropWhile isBlank ≠ []) :
    (QuotedText.join 0x22 (tail :: rest)).dropWhile isBlank
      = QuotedText.join 0x22 (tail.dropWhile isBlank :: rest) := by
  cases rest with
  | nil => rfl
  | cons t more =>
    rw [QuotedText.join, QuotedText.join, List.dropWhile_append, if_neg (by simpa using hblank)]

/-- The value starts inside a string, with no quote in front of it: it is read up to a comma or
a brace, which the string itself has to have. -/
theorem bothReturn_of_filled {b : Bytes}
    (hbehind : valueBehind body key = some (QuotedText.join 0x22 (b :: rest)))
    (hquote : 0x22 ∉ b) (hvalue : 0x22 ∉ value) (hend : rest = [] → 0x7D ∈ b) (hne : b ≠ []) :
    BothReturn body key value
      ↔ (∃ c ∈ b, endsValue c = true) ∧ (b.takeWhile fun c => !endsValue c) = value
        ∧ value.rdropWhile isBlank = value := by
  obtain ⟨c, b', rfl⟩ := List.exists_cons_of_ne_nil hne
  have hfirst : c ≠ 0x22 := by
    rintro rfl
    exact hquote List.mem_cons_self
  obtain ⟨s, hs, hshort⟩ : ∃ s, QuotedText.join 0x22 ((c :: b') :: rest) = (c :: b') ++ s
      ∧ (rest = [] ∨ ∃ s', s = 0x22 :: s') := by
    cases rest with
    | nil => exact ⟨[], (List.append_nil _).symm, .inl rfl⟩
    | cons t more => exact ⟨_, rfl, .inr ⟨_, rfl⟩⟩
  rw [hs, List.cons_append] at hbehind
  rw [bothReturn_of_ne hfirst hbehind, ← List.cons_append]
  by_cases hstop : ∃ x ∈ c :: b', endsValue x = true
  · rw [takeWhile_append_of_stop hstop s]
    exact ⟨fun h => ⟨hstop, h⟩, fun h => h.2⟩
  · refine iff_of_false ?_ fun h => hstop h.1
    rintro ⟨rfl, -⟩
    have hall : ∀ x ∈ c :: b', (!endsValue x) = true := fun x hx => by
      rw [Bool.eq_false_iff.mpr fun hx' => hstop ⟨x, hx, hx'⟩]
      rfl
    rcases hshort with rfl | ⟨s', rfl⟩
    · exact hstop ⟨_, hend rfl, rfl⟩
    · -- it would be read past the closing quote
      rw [List.takeWhile_append_of_pos hall, List.takeWhile_cons_of_pos (by decide)] at hvalue
      exact hvalue (List.mem_append_right _ List.mem_cons_self)

/-- **What both functions read** behind a colon, where they agree. -/
theorem bothReturn_iff_cutOut
    (hbehind : valueBehind body key
      = some ((QuotedText.join 0x22 (tail :: rest)).dropWhile isBlank))
    (htail : 0x22 ∉ tail) (hrest : ∀ s ∈ rest, 0x22 ∉ s) (hvalue : 0x22 ∉ value)
    (hend : rest = [] → 0x7D ∈ tail) (hone : ∀ t, rest = [t] → t ≠ []) :
    BothReturn body key value ↔ CutOut value tail (nextQuoted rest) := by
  unfold CutOut
  by_cases hblank : tail.dropWhile isBlank = []
  · rw [if_pos hblank]
    exact bothReturn_of_blank hbehind hrest hend hone hblank
  · rw [if_neg hblank]
    rw [dropWhile_join_of_ne_nil hblank] at hbehind
    have hquote : (0x22 : UInt8) ∉ tail.dropWhile isBlank :=
      fun hc => htail ((List.dropWhile_sublist _).subset hc)
    refine bothReturn_of_filled hbehind hquote hvalue (fun hnil => ?_) hblank
    -- the closing brace is no blank
    have hclose := hend hnil
    rw [← List.takeWhile_append_dropWhile (p := isBlank) (l := tail), List.mem_append] at hclose
    exact hclose.resolve_left fun hin => absurd (List.mem_takeWhile_imp hin) (by decide)

/-! ## What is read at each place -/

/-- What is found behind the first colon of some segments, as the functions see it. -/
def readBehind (segs : List Bytes) : Option Bytes :=
  (QuotedText.behind 0x3A segs).map fun found =>
    (QuotedText.join 0x22 (found.1 :: found.2)).dropWhile isBlank

theorem readBehind_of_mem {s : Bytes} (hs : 0x3A ∈ s) (segs : List Bytes) :
    readBehind (s :: segs)
      = some ((QuotedText.join 0x22 (afterColon s :: segs)).dropWhile isBlank) := by
  rw [readBehind, QuotedText.behind, if_pos hs]
  rfl

theorem readBehind_of_notMem {s : Bytes} (hs : 0x3A ∉ s) (segs : List Bytes) :
    readBehind (s :: segs) = readBehind segs := by
  rw [readBehind, QuotedText.behind, if_neg hs, readBehind]

theorem mem_of_mem_afterColon {s : Bytes} {c : UInt8} (hc : c ∈ afterColon s) : c ∈ s :=
  (List.dropWhile_sublist _).subset (List.mem_of_mem_tail hc)

theorem separator_spec (rest : List (Bytes × FlatValue)) :
    separator rest ≠ [] ∧ 0x3A ∉ separator rest := by
  unfold separator
  split <;> decide

theorem segments_ne_singleton (members : List (Bytes × FlatValue)) (s : Bytes) :
    segments members ≠ [s] := by
  cases members with
  | nil => nofun
  | cons m rest =>
    obtain ⟨name, value⟩ := m
    cases value <;> nofun

/-- A byte of a number is no blank and ends no value. -/
theorem isNumberByte_spec {c : UInt8} (hc : isNumberByte c = true) :
    isBlank c = false ∧ endsValue c = false ∧ c ≠ 0x22 ∧ c ≠ 0x3A :=
  forall_byte (P := fun c => isNumberByte c = true →
    isBlank c = false ∧ endsValue c = false ∧ c ≠ 0x22 ∧ c ≠ 0x3A) (by decide +kernel) c hc

/-- **The value of a member is read behind its name.** -/
theorem bothReturn_of_value {v : FlatValue} {rest : List (Bytes × FlatValue)}
    (hv : v.WellFormed) (hvalue : 0x22 ∉ value)
    (hquote : ∀ s ∈ v.segments rest (segments rest), 0x22 ∉ s)
    (hread : valueBehind body key = readBehind (v.segments rest (segments rest))) :
    BothReturn body key value ↔ v.text = value := by
  cases v with
  | string s =>
    dsimp only [FlatValue.segments] at hread hquote
    rw [readBehind_of_mem (by decide)] at hread
    rw [bothReturn_iff_cutOut hread (by decide)
      (fun s hs => hquote s (List.mem_cons_of_mem _ hs)) hvalue nofun nofun]
    exact ⟨fun h => Option.some.inj h, fun h => congrArg some h⟩
  | number t =>
    obtain ⟨hne, hnumber⟩ := hv
    dsimp only [FlatValue.segments] at hread hquote
    have htail : afterColon (0x3A :: (t ++ separator rest)) = t ++ separator rest := rfl
    have hsep : ∃ c, separator rest = [c] ∧ endsValue c = true
        ∧ (segments rest = [] → c = 0x7D) := by
      unfold separator
      split
      · exact ⟨0x7D, rfl, rfl, fun _ => rfl⟩
      · rename_i hrest
        exact ⟨0x2C, rfl, rfl, fun h => absurd ((segments_eq_nil_iff rest).mp h) hrest⟩
    obtain ⟨c, hc, hends, hlast⟩ := hsep
    rw [readBehind_of_mem List.mem_cons_self, htail] at hread
    have hfront : (0x22 : UInt8) ∉ t ++ separator rest := fun hmem =>
      hquote _ List.mem_cons_self (List.mem_cons_of_mem _ hmem)
    rw [bothReturn_iff_cutOut hread hfront (fun s hs => hquote s (List.mem_cons_of_mem _ hs)) hvalue
      (fun h => by rw [hc, hlast h]; exact List.mem_append_right _ List.mem_cons_self)
      (fun s hs => absurd hs (segments_ne_singleton rest s))]
    -- the number has no blanks around it and ends at the separator
    obtain ⟨d, t', rfl⟩ := List.exists_cons_of_ne_nil hne
    have hblank := (isNumberByte_spec (hnumber d List.mem_cons_self)).1
    have hdrop : (d :: t' ++ separator rest).dropWhile isBlank = d :: t' ++ separator rest :=
      List.dropWhile_cons_of_neg (by simp [hblank])
    have htake : (d :: t' ++ separator rest).takeWhile (fun c => !endsValue c) = d :: t' := by
      rw [List.takeWhile_append_of_pos fun x hx => by
        rw [(isNumberByte_spec (hnumber x hx)).2.1]; rfl, hc,
        List.takeWhile_cons_of_neg (by simp [hends]), List.append_nil]
    have hend : (d :: t').rdropWhile isBlank = d :: t' := by
      refine List.rdropWhile_eq_self_iff.mpr fun hne => ?_
      rw [(isNumberByte_spec (hnumber _ (List.getLast_mem hne))).1]
      exact Bool.false_ne_true
    unfold CutOut
    rw [hdrop]
    dsimp only
    rw [if_neg (show ¬ d :: t' ++ separator rest = [] from List.cons_ne_nil _ _), htake]
    constructor
    · rintro ⟨-, heq, -⟩
      exact heq
    · rintro rfl
      exact ⟨⟨c, by rw [hc]; exact List.mem_append_right _ List.mem_cons_self, hends⟩, rfl, hend⟩

/-- **What is read at a member**, from its name on. -/
theorem bothReturn_of_member {v : FlatValue} {name : Bytes} {rest : List (Bytes × FlatValue)}
    (hv : v.WellFormed) (hvalue : 0x22 ∉ value)
    (hquote : ∀ s ∈ name :: v.segments rest (segments rest), 0x22 ∉ s)
    (hread : valueBehind body key = readBehind (name :: v.segments rest (segments rest))) :
    BothReturn body key value ↔ ReadsMember value name v rest := by
  have hsegs : ∀ s ∈ v.segments rest (segments rest), 0x22 ∉ s :=
    fun s hs => hquote s (List.mem_cons_of_mem _ hs)
  unfold ReadsMember
  by_cases hcolon : 0x3A ∈ name
  · rw [if_pos hcolon, gap_eq_nextQuoted]
    rw [readBehind_of_mem hcolon] at hread
    refine bothReturn_iff_cutOut hread
      (fun h => hquote name List.mem_cons_self (mem_of_mem_afterColon h)) hsegs hvalue ?_ ?_
    · cases v <;> nofun
    · intro t ht
      cases v with
      | string s => cases ht
      | number t' =>
        rw [← (List.cons.inj ht).1]
        nofun
  · rw [if_neg hcolon]
    rw [readBehind_of_notMem hcolon] at hread
    exact bothReturn_of_value hv hvalue hsegs hread

/-- What is read at the next member, if there is one. -/
theorem bothReturn_of_next {rest : List (Bytes × FlatValue)}
    (hrest : ∀ m ∈ rest, m.2.WellFormed) (hvalue : 0x22 ∉ value)
    (hquote : ∀ s ∈ segments rest, 0x22 ∉ s)
    (hread : valueBehind body key = readBehind (segments rest)) :
    BothReturn body key value ↔ ReadsNext value rest := by
  cases rest with
  | nil => exact bothReturn_of_none hread
  | cons m rest => exact bothReturn_of_member (hrest m List.mem_cons_self) hvalue hquote hread

/-- What is known of a place and of the members it names. -/
def Place.WellFormed : Place → Prop
  | nowhere => True
  | inName _ v rest => v.WellFormed ∧ ∀ m ∈ rest, m.2.WellFormed
  | behindName v rest => v.WellFormed ∧ ∀ m ∈ rest, m.2.WellFormed
  | inValue _ rest => ∀ m ∈ rest, m.2.WellFormed
  | behindValue rest => ∀ m ∈ rest, m.2.WellFormed

theorem wellFormed_firstPlace (pieces : List Bytes) {members : List (Bytes × FlatValue)}
    (h : ∀ m ∈ members, m.2.WellFormed) : (firstPlace pieces members).WellFormed := by
  induction members with
  | nil => trivial
  | cons m rest ih =>
    obtain ⟨name, value⟩ := m
    have hvalue := h _ List.mem_cons_self
    have hrest : ∀ m ∈ rest, m.2.WellFormed := fun m hm => h m (List.mem_cons_of_mem _ hm)
    rw [firstPlace.eq_def]
    dsimp only
    split
    · exact ⟨hvalue, hrest⟩
    split
    · exact ⟨hvalue, hrest⟩
    cases value with
    | string s =>
      dsimp only
      split
      · exact hrest
      split
      · exact hrest
      · exact ih hrest
    | number t => exact ih hrest

/-- **What both functions read is what the place yields.** -/
theorem bothReturn_of_place {place : Place} (hplace : place.WellFormed)
    (hvalue : 0x22 ∉ value) (hquote : ∀ segs, place.found = some segs → ∀ s ∈ segs, 0x22 ∉ s)
    (hread : valueBehind body key = place.found.bind readBehind) :
    BothReturn body key value ↔ place.Yields value := by
  cases place with
  | nowhere => exact bothReturn_of_none hread
  | inName name v rest => exact bothReturn_of_member hplace.1 hvalue (hquote _ rfl) hread
  | behindName v rest => exact bothReturn_of_value hplace.1 hvalue (hquote _ rfl) hread
  | behindValue rest =>
    refine bothReturn_of_next hplace hvalue
      (fun s hs => hquote _ rfl s (List.mem_cons_of_mem _ hs)) ?_
    rw [hread, Place.found, Option.bind_some, readBehind_of_notMem (separator_spec rest).2]
  | inValue text rest =>
    have hsep := separator_spec rest
    have hsegs : ∀ s ∈ text :: separator rest :: segments rest, 0x22 ∉ s := hquote _ rfl
    rw [Place.found, Option.bind_some] at hread
    show _ ↔ if 0x3A ∈ text then _ else _
    by_cases hcolon : 0x3A ∈ text
    · have hgap : (if rest = [] then none else some [0x2C])
          = nextQuoted (separator rest :: segments rest) := by
        by_cases hnil : rest = []
        · subst hnil
          rfl
        · obtain ⟨s, behind, hseg⟩ :=
            List.exists_cons_of_ne_nil (mt (segments_eq_nil_iff rest).mp hnil)
          rw [if_neg hnil, hseg, nextQuoted, separator, if_neg hnil]
      rw [readBehind_of_mem hcolon] at hread
      rw [if_pos hcolon, hgap]
      refine bothReturn_iff_cutOut hread
        (fun h => hsegs text List.mem_cons_self (mem_of_mem_afterColon h))
        (fun s hs => hsegs s (List.mem_cons_of_mem _ hs)) hvalue nofun ?_
      intro t ht
      rw [← (List.cons.inj ht).1]
      exact hsep.1
    · rw [readBehind_of_notMem hcolon, readBehind_of_notMem hsep.2] at hread
      rw [if_neg hcolon]
      exact bothReturn_of_next hplace hvalue
        (fun s hs => hsegs s (List.mem_cons_of_mem _ (List.mem_cons_of_mem _ hs))) hread

/-! ## When a field is found -/

/-- Where a string has no quotes, there are none in what is written of it. -/
theorem quote_notMem_escape {s : Bytes} (hs : 0x22 ∉ s) : 0x22 ∉ Json.escape s := by
  rw [Json.escape, List.mem_flatMap]
  rintro ⟨c, hc, hmem⟩
  have hbyte := forall_byte (P := fun c => 0x22 ∈ Json.escapeByte c → c = 0x22) (by decide +kernel)
  exact hs (hbyte c hmem ▸ hc)

/-- No segment of an object has a quote in it. -/
theorem quote_notMem_segments {members : List (Bytes × FlatValue)}
    (hkey : ∀ m ∈ members, 0x22 ∉ m.1) (hvalue : ∀ m ∈ members, m.2.WellFormed) :
    ∀ s ∈ segments members, 0x22 ∉ s := by
  induction members with
  | nil => nofun
  | cons m rest ih =>
    obtain ⟨name, value⟩ := m
    have hname : 0x22 ∉ Json.escape name := quote_notMem_escape (hkey _ List.mem_cons_self)
    have hrest := ih (fun m hm => hkey m (List.mem_cons_of_mem _ hm))
      fun m hm => hvalue m (List.mem_cons_of_mem _ hm)
    have hwf := hvalue _ List.mem_cons_self
    have hsep : (0x22 : UInt8) ∉ separator rest := by
      unfold separator
      split <;> decide
    cases value with
    | string s =>
      intro t ht
      rcases List.mem_cons.mp ht with rfl | ht
      · exact hname
      rcases List.mem_cons.mp ht with rfl | ht
      · decide
      rcases List.mem_cons.mp ht with rfl | ht
      · exact quote_notMem_escape hwf.1
      rcases List.mem_cons.mp ht with rfl | ht
      · exact hsep
      · exact hrest t ht
    | number n =>
      have hnumber : (0x22 : UInt8) ∉ n := fun hmem => (isNumberByte_spec (hwf.2 _ hmem)).2.2.1 rfl
      intro t ht
      rcases List.mem_cons.mp ht with rfl | ht
      · exact hname
      rcases List.mem_cons.mp ht with rfl | ht
      · rw [List.mem_cons, List.mem_append]
        rintro (hcolon | hmem | hmem)
        · cases hcolon
        · exact hnumber hmem
        · exact hsep hmem
      · exact hrest t ht

theorem mem_of_fromWords {pieces segs found : List Bytes}
    (h : QuotedText.fromWords pieces segs = some found) : ∀ s ∈ found, s ∈ segs := by
  induction segs with
  | nil => cases h
  | cons s segs ih =>
    rw [QuotedText.fromWords] at h
    split at h
    · rw [Option.some.inj h]
      exact fun _ => id
    · exact fun u hu => List.mem_cons_of_mem _ (ih h u hu)

namespace FlatObject

variable (o : FlatObject)

/-- The text of the object. -/
def text : Bytes := stringify o.members

theorem quote_notMem_valueOf (key : Bytes) : 0x22 ∉ o.valueOf key := by
  unfold valueOf
  cases hfind : o.members.find? fun m => m.1 = key with
  | none => exact List.not_mem_nil
  | some m =>
    have hwf := o.value_wellFormed m (List.mem_of_find?_eq_some hfind)
    dsimp only
    cases hm : m.2 with
    | string s =>
      rw [hm] at hwf
      exact hwf.1
    | number t =>
      rw [hm] at hwf
      exact fun hmem => (isNumberByte_spec (hwf.2 _ hmem)).2.2.1 rfl

/-- Where the key first stands in quotes. -/
def place (key : Bytes) : Place := firstPlace (key.splitOn 0x22) o.members

/-- Both functions return a value exactly if it is what the first place yields. -/
theorem bothReturn_text_iff (key : Bytes) {value : Bytes} (hvalue : 0x22 ∉ value) :
    BothReturn o.text key value ↔ (o.place key).Yields value := by
  have hquote := quote_notMem_segments (fun m hm => (o.key_noQuote m hm).1) o.value_wellFormed
  obtain ⟨g, hg, htext⟩ := stringify_eq_join o.members
  refine bothReturn_of_place (wellFormed_firstPlace _ o.value_wellFormed) hvalue
    (fun segs hsegs s hs => ?_) ?_
  · rw [place, ← fromWords_segments] at hsegs
    exact hquote s (mem_of_fromWords hsegs s hs)
  · rw [text, htext, valueBehind_join hg hquote, fromWords_segments, Option.map_bind]
    rfl

/-- Neither control characters nor the key itself in the strings of an object, and no colon in the
key, which is no comma. -/
structure Clear (key : Bytes) : Prop where
  key_noColon : 0x3A ∉ key
  key_ne : key ≠ [0x2C]
  name_noControl : ∀ m ∈ o.members, ∀ c ∈ m.1, 0x20 ≤ c
  value_noControl : ∀ m ∈ o.members, ∀ c ∈ m.2.contents, 0x20 ≤ c
  value_ne : ∀ m ∈ o.members, m.2 ≠ .string key

/-- A key without quotes stands where its one piece is. -/
theorem stands_singleton {key s : Bytes} {segs : List Bytes} :
    QuotedText.Stands [key] (s :: segs) ↔ key = s ∧ segs ≠ [] := by
  rw [QuotedText.stands_cons_cons, QuotedText.stands_nil]

/-- There a key in quotes is a name. -/
theorem firstPlace_of_clear {key : Bytes} (hcolon : 0x3A ∉ key) (hcomma : key ≠ [0x2C])
    {members : List (Bytes × FlatValue)} (hname : ∀ m ∈ members, Json.escape m.1 = m.1)
    (hvalue : ∀ m ∈ members, m.2.text = m.2.contents) (hne : ∀ m ∈ members, m.2 ≠ .string key) :
    match members.find? fun m => m.1 = key with
    | some m => ∃ rest, firstPlace [key] members = .inName key m.2 rest
    | none => firstPlace [key] members = .nowhere := by
  induction members with
  | nil => rfl
  | cons m rest ih =>
    obtain ⟨name, value⟩ := m
    have hgap : ¬ QuotedText.Stands [key] (value.segments rest (segments rest)) := by
      intro hgap
      refine hcolon ?_
      cases value <;>
      · rw [(stands_singleton.mp hgap).1]
        exact List.mem_cons_self
    have hbehind : value.segments rest (segments rest) ≠ [] := by
      cases value <;> exact List.cons_ne_nil _ _
    have hfirst : QuotedText.Stands [key] (name :: value.segments rest (segments rest))
        ↔ name = key := by
      rw [stands_singleton, and_iff_left hbehind, eq_comm]
    rw [List.find?_cons, firstPlace.eq_def]
    dsimp only
    rw [hname _ List.mem_cons_self]
    dsimp only
    by_cases hkey : name = key
    · rw [decide_eq_true hkey, if_pos (hfirst.mpr hkey), hkey]
      exact ⟨rest, rfl⟩
    rw [decide_eq_false hkey, if_neg (mt hfirst.mp hkey), if_neg hgap]
    have hrest := ih (fun m hm => hname m (List.mem_cons_of_mem _ hm))
      (fun m hm => hvalue m (List.mem_cons_of_mem _ hm))
      fun m hm => hne m (List.mem_cons_of_mem _ hm)
    cases value with
    | string s =>
      have hs : ¬ QuotedText.Stands [key] (Json.escape s :: separator rest :: segments rest) := by
        intro hs
        have htext : Json.escape s = s := hvalue _ List.mem_cons_self
        have hkey := (stands_singleton.mp hs).1
        rw [htext] at hkey
        exact hne _ List.mem_cons_self (by rw [hkey])
      have hsep : ¬ QuotedText.Stands [key] (separator rest :: segments rest) := by
        intro hsep
        obtain ⟨hkey, hseg⟩ := stands_singleton.mp hsep
        rw [separator, if_neg (mt (segments_eq_nil_iff rest).mpr hseg)] at hkey
        exact hcomma hkey
      dsimp only
      rw [if_neg hs, if_neg hsep]
      exact hrest
    | number t => exact hrest

/-- **There every field is found.** -/
theorem bothReturn_of_clear {key : Bytes} (hkey : 0x22 ∉ key) (h : o.Clear key) :
    BothReturn o.text key (o.valueOf key) := by
  have hplain : ∀ s : Bytes, (∀ c ∈ s, 0x20 ≤ c) → 0x22 ∉ s ∧ 0x5C ∉ s → Json.escape s = s := by
    intro s hlow hquote
    refine Json.escape_of_isPlain fun c hc => ?_
    have hne : c ≠ 0x22 ∧ c ≠ 0x5C := by
      constructor <;> rintro rfl
      · exact hquote.1 hc
      · exact hquote.2 hc
    rw [Json.isPlain, decide_eq_true (hlow c hc), bne_iff_ne.mpr hne.1, bne_iff_ne.mpr hne.2]
    rfl
  have htext : ∀ m ∈ o.members, m.2.text = m.2.contents := by
    intro m hm
    have hwf := o.value_wellFormed m hm
    have hlow := h.value_noControl m hm
    cases hvalue : m.2 with
    | string s =>
      rw [hvalue] at hwf hlow
      exact hplain s hlow hwf
    | number t => rfl
  refine (o.bothReturn_text_iff key (o.quote_notMem_valueOf key)).mpr ?_
  rw [place, List.splitOn_eq_singleton hkey]
  have hplace := firstPlace_of_clear h.key_noColon h.key_ne
    (fun m hm => hplain m.1 (h.name_noControl m hm) (o.key_noQuote m hm)) htext h.value_ne
  unfold valueOf
  cases hfind : o.members.find? fun m => m.1 = key with
  | none =>
    rw [hfind] at hplace
    dsimp only at hplace
    rw [hplace]
    rfl
  | some m =>
    rw [hfind] at hplace
    obtain ⟨rest, hrest⟩ := hplace
    rw [hrest]
    show ReadsMember _ _ _ _
    rw [ReadsMember, if_neg h.key_noColon]
    exact htext m (List.mem_of_find?_eq_some hfind)

/-- **When a field is found.** For every flat object and every key, both functions return the
value of the key, or the empty string where there is none, exactly if that is what the first place
yields where the key stands in quotes. -/
theorem bothReturn_valueOf_iff (key : Bytes) :
    BothReturn o.text key (o.valueOf key) ↔ (o.place key).Yields (o.valueOf key) :=
  o.bothReturn_text_iff key (o.quote_notMem_valueOf key)

end FlatObject

/-- A test on a device whose name is a key. -/
def speedDevice : FlatObject where
  members := [(lit "device_name", .string (lit "speed")), (lit "device_id", .string (lit "d1")),
    (lit "speed", .number (lit "95.5"))]
  keys_nodup := by decide
  key_noQuote := by decide
  value_wellFormed := by decide +kernel

/-- Both functions return its identifier for its speed. -/
theorem speedDevice_misread :
    speedDevice.valueOf (lit "speed") = lit "95.5"
      ∧ findJsonValue speedDevice.text (lit "speed") = lit "d1"
      ∧ extractJsonString speedDevice.text (lit "speed") = lit "d1"
      ∧ ¬ BothReturn speedDevice.text (lit "speed") (speedDevice.valueOf (lit "speed")) := by
  have hfind : findJsonValue speedDevice.text (lit "speed") = lit "d1" := by decide +kernel
  refine ⟨by decide +kernel, hfind, by decide +kernel, fun h => ?_⟩
  have heq := h.1
  rw [hfind] at heq
  revert heq
  decide +kernel
