import HttpServer.HttpMessage
import Mathlib.Data.List.Induction

/-!
# Form data

What `ParseFormData` of `application/http/http_request.cpp` makes of a body that was written in
the format `application/x-www-form-urlencoded`: letters, digits and `* - . _` stand for
themselves, a plus sign for a blank, and every other byte is written as a percent sign and two
hexadecimal digits. Key and value of a pair are joined by an equals sign, and the pairs by
ampersands.

Neither of the two separators is left in a key or a value that has been written like this, so the
body comes apart where it was put together. A percent sign is always that of an escape, with both
digits behind it, and `urlDecode` takes the escapes back one by one.
-/

/-! ## The format -/

/-- A hexadecimal digit, in upper case. -/
def toHexDigit (n : UInt8) : UInt8 := if n < 10 then 0x30 + n else 0x37 + n

/-- The bytes that stand for themselves: letters, digits and `* - . _`. -/
def isFormSafe (c : UInt8) : Bool :=
  isDigit c || (0x41 ≤ c && c ≤ 0x5A) || (0x61 ≤ c && c ≤ 0x7A)
    || c == 0x2A || c == 0x2D || c == 0x2E || c == 0x5F

/-- One byte of a key or a value. -/
def formEncodeByte (c : UInt8) : Bytes :=
  if isFormSafe c then [c]
  else if c = 0x20 then [0x2B]
  else [0x25, toHexDigit (c / 16), toHexDigit (c % 16)]

/-- A key or a value. -/
def formEncode (s : Bytes) : Bytes := s.flatMap formEncodeByte

/-- A key with its value. -/
def formPair (pair : Bytes × Bytes) : Bytes := formEncode pair.1 ++ 0x3D :: formEncode pair.2

/-- **The serialisation of a form**, `application/x-www-form-urlencoded`. -/
def formBody (pairs : List (Bytes × Bytes)) : Bytes := [0x26].intercalate (pairs.map formPair)

/-- The value at the last occurrence of a key. -/
def lastValue (pairs : List (Bytes × Bytes)) (key : Bytes) : Option Bytes :=
  (pairs.reverse.find? fun pair => pair.1 = key).map Prod.snd

/-! ## Decoding -/

/-- What is true of the bytes one by one is true of all of them. -/
theorem forall_byte {P : UInt8 → Prop} (h : ∀ n : Fin 256, P (.ofFin n)) (c : UInt8) : P c :=
  h c.toFin

/-- The two digits of a byte. -/
theorem strtolHex_toHexDigit (c : UInt8) :
    strtolHex (toHexDigit (c / 16)) (toHexDigit (c % 16)) = some c :=
  forall_byte (P := fun c => strtolHex (toHexDigit (c / 16)) (toHexDigit (c % 16)) = some c)
    (by decide +kernel) c

/-- Neither a percent sign nor a plus sign stands for itself. -/
theorem isFormSafe_ne (c : UInt8) (h : isFormSafe c = true) : c ≠ 0x25 ∧ c ≠ 0x2B := by
  constructor <;> rintro rfl <;> cases h

/-- No separator is left in what has been encoded. -/
theorem separator_notMem_formEncodeByte (c : UInt8) :
    0x26 ∉ formEncodeByte c ∧ 0x3D ∉ formEncodeByte c :=
  forall_byte (P := fun c => 0x26 ∉ formEncodeByte c ∧ 0x3D ∉ formEncodeByte c)
    (by decide +kernel) c

/-- **One byte is taken back**, whatever follows it. -/
theorem urlDecode_formEncodeByte (c : UInt8) (rest : Bytes) :
    urlDecode (formEncodeByte c ++ rest) = c :: urlDecode rest := by
  unfold formEncodeByte
  split
  · rename_i hsafe
    obtain ⟨hpercent, hplus⟩ := isFormSafe_ne c hsafe
    rw [List.singleton_append, urlDecode.eq_def]
    dsimp only
    rw [if_neg hpercent, if_neg hplus]
  · split
    · rename_i hblank
      rw [List.singleton_append, urlDecode.eq_def, hblank]
      dsimp only
      rw [if_neg (by decide), if_pos rfl]
    · rw [List.cons_append, urlDecode.eq_def]
      dsimp only [List.cons_append, List.nil_append]
      rw [if_pos rfl, strtolHex_toHexDigit]

/-- **Decoding inverts encoding** of a key or a value. -/
theorem urlDecode_formEncode (s : Bytes) : urlDecode (formEncode s) = s := by
  induction s with
  | nil => rfl
  | cons c s ih =>
    rw [formEncode, List.flatMap_cons, urlDecode_formEncodeByte]
    exact congrArg (c :: ·) ih

theorem ampersand_notMem_formEncode (s : Bytes) : 0x26 ∉ formEncode s := by
  intro hmem
  obtain ⟨c, -, hc⟩ := List.mem_flatMap.mp hmem
  exact (separator_notMem_formEncodeByte c).1 hc

theorem equals_notMem_formEncode (s : Bytes) : 0x3D ∉ formEncode s := by
  intro hmem
  obtain ⟨c, -, hc⟩ := List.mem_flatMap.mp hmem
  exact (separator_notMem_formEncodeByte c).2 hc

/-- No ampersand is left in a pair. -/
theorem ampersand_notMem_formPair (pair : Bytes × Bytes) : 0x26 ∉ formPair pair := by
  intro hmem
  rcases List.mem_append.mp hmem with hkey | hvalue
  · exact ampersand_notMem_formEncode _ hkey
  · rcases List.mem_cons.mp hvalue with heq | hvalue
    · cases heq
    · exact ampersand_notMem_formEncode _ hvalue

namespace HttpRequest

/-- **A pair is split where it was joined.** -/
theorem addFormPair_formPair (formData : StringMap) (pair : Bytes × Bytes) :
    addFormPair formData (formPair pair) = formData.insert pair.1 pair.2 := by
  have hfind : Search.find (lit "=") (formPair pair) = some (formEncode pair.1).length :=
    Search.find_append_pattern (equals_notMem_formEncode pair.1) (formEncode pair.2)
  unfold addFormPair
  rw [hfind]
  dsimp only
  rw [formPair, List.take_left, List.drop_append, List.drop_eq_nil_of_le (Nat.le_succ _),
    Nat.add_sub_cancel_left, List.nil_append, List.drop_one, List.tail_cons,
    urlDecode_formEncode, urlDecode_formEncode]

/-- **The body comes apart into its pairs.** -/
theorem foldl_addFormPair_formBody (pairs : List (Bytes × Bytes)) :
    ((formBody pairs).splitOn 0x26).foldl addFormPair ∅
      = pairs.foldl (fun formData pair => formData.insert pair.1 pair.2) ∅ := by
  cases hpairs : pairs with
  | nil => rfl
  | cons first rest =>
    rw [← hpairs]
    have hsplit : (formBody pairs).splitOn 0x26 = pairs.map formPair := by
      refine List.splitOn_intercalate 0x26 (fun piece hmem => ?_) (by simp [hpairs])
      obtain ⟨pair, -, rfl⟩ := List.mem_map.mp hmem
      exact ampersand_notMem_formPair pair
    rw [hsplit, List.foldl_map]
    simp only [addFormPair_formPair]

/-- Later pairs win. -/
theorem lookup_foldl_insert (pairs : List (Bytes × Bytes)) (key : Bytes) :
    (pairs.foldl (fun formData pair => formData.insert pair.1 pair.2) (∅ : StringMap)).lookup key
      = lastValue pairs key := by
  induction pairs using List.reverseRecOn with
  | nil => rfl
  | append_singleton pairs last ih =>
    rw [List.foldl_append, List.foldl_cons, List.foldl_nil, lastValue, List.reverse_append,
      List.reverse_singleton, List.singleton_append, List.find?_cons]
    by_cases hkey : last.1 = key
    · rw [← hkey, Finmap.lookup_insert]
      simp
    · rw [Finmap.lookup_insert_of_ne _ (Ne.symm hkey), ih]
      simp [hkey, lastValue]

/-- **Form decoding inverts form encoding.** If the body is the serialisation of a list of pairs
and the content type says so, the form data sends each key to the value of its last occurrence,
and there are no other keys. -/
theorem parseFormData_formBody (req : HttpRequest) (pairs : List (Bytes × Bytes))
    (htype : Search.contains (lit "application/x-www-form-urlencoded")
      (req.getHeader (lit "Content-Type")) = true)
    (hbody : req.body = formBody pairs) (key : Bytes) :
    req.parseFormData.formData.lookup key = lastValue pairs key := by
  rw [parseFormData, if_pos htype, hbody, foldl_addFormPair_formBody, lookup_foldl_insert]

/-- A request with the form `a=1&a=100 %&=`. -/
def formRequest : HttpRequest :=
  { headers := (∅ : StringMap).insert (lit "Content-Type")
      (lit "application/x-www-form-urlencoded; charset=utf-8")
    body := lit "a=1&a=100+%25&=" }

/-- The form data of that request. -/
theorem parseFormData_formBody_last :
    let pairs : List (Bytes × Bytes) :=
      [(lit "a", lit "1"), (lit "a", lit "100 %"), (lit "", lit "")]
    formRequest.parseFormData.formData.lookup (lit "a") = lastValue pairs (lit "a")
      ∧ lastValue pairs (lit "a") = some (lit "100 %") := by
  intro pairs
  exact ⟨parseFormData_formBody formRequest pairs (by decide +kernel) (by decide +kernel) _,
    by decide +kernel⟩

end HttpRequest
