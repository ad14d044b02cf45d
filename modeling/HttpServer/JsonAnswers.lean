import HttpServer.JsonFields
import HttpServer.SerialisedRequest

/-!
# The JSON answers of the API

`handleGetDevices` and `handleGetHistory` of `application/http/handler/SpeedTestApi.cpp` put the
strings of the database between quotes as they are. Whether the answer is a JSON text that shows
these strings depends on their bytes: `answers_wellFormed_iff`. What a client may have stored is
whatever `findJsonValue` cuts out of the text of a request, so it may have backslashes, control
characters and even quotes in it (`exists_findJsonValue_iff`).

A `double` is printed by `std::to_string`, which writes `inf` and `nan` for what is no number.

Both answers have the same form: an array of objects, whose members are strings that stand there as
they are and numbers that were printed (`rawRows`). The criterion is proved for that form, in three
steps that follow the text from the left. A value is read with its string, and what is behind it is
left over, exactly if no byte of the string ends it early or starts an escape (`Readable`); then the
same goes for the members of an object, and for the objects of the array. At each step it has to be
seen that a string which is not readable cannot be made up for by what comes behind it: the text
goes on with plain bytes up to the next quote (`Quiet`), so that the reader stays out of step until
it fails. The encoding is looked at last and for the whole text at once, since a byte that is no
UTF-8 is no more so between quotes.

What the objects should show is stated without the code: `ShowsAll` asks the reader of RFC 8259 for
an array with one object for each element, and these strings in it under their names.
-/

/-! ## The source -/

/-- A `double`, as far as `std::to_string` tells one from another: a number of millionths, which
it rounds to, with a sign, or none. -/
inductive Double
  | finite (negative : Bool) (millionths : ℕ)
  | infinite (negative : Bool)
  | nan (negative : Bool)
  deriving DecidableEq

/-- The six digits behind the point. -/
def sixDigits (n : ℕ) : Bytes :=
  [100000, 10000, 1000, 100, 10, 1].map fun p => .ofNat (0x30 + n / p % 10)

/-- `std::to_string` of a `double`. -/
def doubleToDecimal : Double → Bytes
  | .finite negative n =>
    (if negative then lit "-" else []) ++ (toDecimal (n / 1000000) ++ 0x2E :: sixDigits n)
  | .infinite negative => if negative then lit "-inf" else lit "inf"
  | .nan negative => if negative then lit "-nan" else lit "nan"

/-- `DeviceInfo`. -/
structure DeviceInfo where
  deviceId : Bytes
  deviceName : Bytes
  lastSeen : Bytes
  totalTests : ℤ
  avgSpeed : Double
  avgLatency : ℤ
  avgPacketLoss : Double

/-- What `handleGetHistory` shows of a `SpeedRecord`. -/
structure HistoryRecord where
  id : ℤ
  deviceName : Bytes
  speedMbps : Double
  createdAt : Bytes

/-- The text of a device in the loop of `handleGetDevices`. -/
def deviceJson (device : DeviceInfo) : Bytes :=
  lit "\x7b\"device_id\":\"" ++ device.deviceId ++ lit "\","
    ++ lit "\"device_name\":\"" ++ device.deviceName ++ lit "\","
    ++ lit "\"last_seen\":\"" ++ device.lastSeen ++ lit "\","
    ++ lit "\"total_tests\":" ++ intToDecimal device.totalTests ++ lit ","
    ++ lit "\"avg_speed\":" ++ doubleToDecimal device.avgSpeed ++ lit ","
    ++ lit "\"avg_latency\":" ++ intToDecimal device.avgLatency ++ lit ","
    ++ lit "\"avg_packet_loss\":" ++ doubleToDecimal device.avgPacketLoss ++ lit "\x7d"

/-- The text of a record in the loop of `handleGetHistory`. -/
def recordJson (record : HistoryRecord) : Bytes :=
  lit "\x7b\"id\":" ++ intToDecimal record.id ++ lit ","
    ++ lit "\"device_name\":\"" ++ record.deviceName ++ lit "\","
    ++ lit "\"speed_mbps\":" ++ doubleToDecimal record.speedMbps ++ lit ","
    ++ lit "\"created_at\":\"" ++ record.createdAt ++ lit "\"\x7d"

/-- The texts of both loops, with commas between them and brackets around. -/
def jsonList (items : List Bytes) : Bytes := lit "[" ++ [0x2C].intercalate items ++ lit "]"

/-- The answer without a database. -/
def databaseMissing (resp : HttpResponse) : HttpResponse :=
  ((resp.setStatus 500 []).setBody
    (lit "\x7b\"error\":\"Database not available\"\x7d")).setContentType (lit "application/json")

/-- `handleGetDevices`, with what `getDevices` returns if there is a database. -/
def handleGetDevices (devices : Option (List DeviceInfo)) (resp : HttpResponse) : HttpResponse :=
  match devices with
  | none => databaseMissing resp
  | some devices =>
    (resp.setBody (jsonList (devices.map deviceJson))).setContentType (lit "application/json")

/-- `handleGetHistory`, with what `getHistory` returns if there is a database. -/
def handleGetHistory (records : Option (List HistoryRecord)) (resp : HttpResponse) :
    HttpResponse :=
  match records with
  | none => databaseMissing resp
  | some records =>
    (resp.setBody (jsonList (records.map recordJson))).setContentType (lit "application/json")

/-! ## What the answer should be -/

/-- The members of an object that are strings. -/
def stringMembers (members : List (Bytes × Json.Value)) : List (Bytes × Bytes) :=
  members.filterMap fun m =>
    match m.2 with
    | .string s => some (m.1, s)
    | _ => none

/-- An object whose string members are these. -/
def Shows (strings : List (Bytes × Bytes)) : Json.Value → Prop
  | .object members => stringMembers members = strings
  | _ => False

/-- **A JSON text of an array of objects**, one for each element, in order, with these strings. -/
def ShowsAll (body : Bytes) (strings : List (List (Bytes × Bytes))) : Prop :=
  ∃ objects, Json.parse body = some (.array objects) ∧ List.Forall₂ Shows strings objects

/-- The strings that the object of a device should have. -/
def DeviceInfo.strings (device : DeviceInfo) : List (Bytes × Bytes) :=
  [(lit "device_id", device.deviceId), (lit "device_name", device.deviceName),
    (lit "last_seen", device.lastSeen)]

/-- The strings that the object of a record should have. -/
def HistoryRecord.strings (record : HistoryRecord) : List (Bytes × Bytes) :=
  [(lit "device_name", record.deviceName), (lit "created_at", record.createdAt)]

/-- **A string that may stand in quotes as it is**: UTF-8 without control characters, quotes and
backslashes. -/
def PlainText (s : Bytes) : Prop := Utf8.isValid s = true ∧ ∀ c ∈ s, Json.isPlain c = true

/-- A finite number. -/
def Double.IsFinite : Double → Prop
  | finite _ _ => True
  | _ => False

/-- What the answer on a device can show. -/
def DeviceInfo.Presentable (device : DeviceInfo) : Prop :=
  PlainText device.deviceId ∧ PlainText device.deviceName ∧ PlainText device.lastSeen
    ∧ device.avgSpeed.IsFinite ∧ device.avgPacketLoss.IsFinite

/-- What the answer on a record can show. -/
def HistoryRecord.Presentable (record : HistoryRecord) : Prop :=
  PlainText record.deviceName ∧ PlainText record.createdAt ∧ record.speedMbps.IsFinite

/-! ## Objects with strings as they are -/

/-- A value with its string as it is. -/
def rawValue : FlatValue → Bytes
  | .string s => 0x22 :: (s ++ [0x22])
  | .number t => t

/-- The members of an object, with its closing brace. -/
def rawMembers : List (Bytes × FlatValue) → Bytes
  | [] => [0x7D]
  | f :: fs =>
    0x22 :: (f.1 ++ 0x22 :: 0x3A :: (rawValue f.2
      ++ if fs.isEmpty then [0x7D] else 0x2C :: rawMembers fs))

/-- The objects of an array, with its closing bracket. -/
def rawRows : List (List (Bytes × FlatValue)) → Bytes
  | [] => [0x5D]
  | r :: rs => 0x7B :: (rawMembers r ++ if rs.isEmpty then [0x5D] else 0x2C :: rawRows rs)

theorem jsonList_eq (rows : List (List (Bytes × FlatValue))) :
    jsonList (rows.map fun r => 0x7B :: rawMembers r) = 0x5B :: rawRows rows := by
  have hlist : ∀ rows : List (List (Bytes × FlatValue)), rows ≠ [] →
      [0x2C].intercalate (rows.map fun r => 0x7B :: rawMembers r) ++ [0x5D] = rawRows rows := by
    intro rows hne
    induction rows with
    | nil => exact absurd rfl hne
    | cons r rs ih =>
      cases rs with
      | nil => simp [List.intercalate, rawRows]
      | cons r' rs =>
        rw [rawRows, if_neg (by simp), ← ih (List.cons_ne_nil _ _)]
        simp [List.intercalate]
  cases rows with
  | nil => rfl
  | cons r rs => exact congrArg (0x5B :: ·) (hlist (r :: rs) (List.cons_ne_nil _ _))

/-- The members of the object of a device. -/
def DeviceInfo.fields (device : DeviceInfo) : List (Bytes × FlatValue) :=
  [(lit "device_id", .string device.deviceId), (lit "device_name", .string device.deviceName),
    (lit "last_seen", .string device.lastSeen),
    (lit "total_tests", .number (intToDecimal device.totalTests)),
    (lit "avg_speed", .number (doubleToDecimal device.avgSpeed)),
    (lit "avg_latency", .number (intToDecimal device.avgLatency)),
    (lit "avg_packet_loss", .number (doubleToDecimal device.avgPacketLoss))]

/-- The members of the object of a record. -/
def HistoryRecord.fields (record : HistoryRecord) : List (Bytes × FlatValue) :=
  [(lit "id", .number (intToDecimal record.id)),
    (lit "device_name", .string record.deviceName),
    (lit "speed_mbps", .number (doubleToDecimal record.speedMbps)),
    (lit "created_at", .string record.createdAt)]

theorem rawMembers_string (name s : Bytes) (f : Bytes × FlatValue)
    (fs : List (Bytes × FlatValue)) :
    rawMembers ((name, .string s) :: f :: fs)
      = 0x22 :: (name ++ 0x22 :: 0x3A :: 0x22 :: (s ++ 0x22 :: 0x2C :: rawMembers (f :: fs))) := by
  rw [rawMembers, rawValue]
  simp

theorem rawMembers_number (name t : Bytes) (f : Bytes × FlatValue)
    (fs : List (Bytes × FlatValue)) :
    rawMembers ((name, .number t) :: f :: fs)
      = 0x22 :: (name ++ 0x22 :: 0x3A :: (t ++ 0x2C :: rawMembers (f :: fs))) := by
  rw [rawMembers, rawValue]
  simp

theorem rawMembers_last_string (name s : Bytes) :
    rawMembers [(name, .string s)]
      = 0x22 :: (name ++ 0x22 :: 0x3A :: 0x22 :: (s ++ [0x22, 0x7D])) := by
  rw [rawMembers, rawValue]
  simp

theorem rawMembers_last_number (name t : Bytes) :
    rawMembers [(name, .number t)] = 0x22 :: (name ++ 0x22 :: 0x3A :: (t ++ [0x7D])) := by
  rw [rawMembers, rawValue]
  simp

/-- The punctuation of the source. -/
theorem lit_punctuation :
    lit "," = [0x2C] ∧ lit "\"," = [0x22, 0x2C] ∧ lit "\x7d" = [0x7D]
      ∧ lit "\"\x7d" = [0x22, 0x7D] :=
  ⟨rfl, rfl, rfl, rfl⟩

theorem deviceJson_eq (device : DeviceInfo) :
    deviceJson device = 0x7B :: rawMembers device.fields := by
  obtain ⟨hcomma, hquote, hbrace, -⟩ := lit_punctuation
  have hid : lit "\x7b\"device_id\":\""
      = 0x7B :: 0x22 :: (lit "device_id" ++ [0x22, 0x3A, 0x22]) := rfl
  have hname : lit "\"device_name\":\"" = 0x22 :: (lit "device_name" ++ [0x22, 0x3A, 0x22]) := rfl
  have hseen : lit "\"last_seen\":\"" = 0x22 :: (lit "last_seen" ++ [0x22, 0x3A, 0x22]) := rfl
  have htests : lit "\"total_tests\":" = 0x22 :: (lit "total_tests" ++ [0x22, 0x3A]) := rfl
  have hspeed : lit "\"avg_speed\":" = 0x22 :: (lit "avg_speed" ++ [0x22, 0x3A]) := rfl
  have hlatency : lit "\"avg_latency\":" = 0x22 :: (lit "avg_latency" ++ [0x22, 0x3A]) := rfl
  have hloss : lit "\"avg_packet_loss\":" = 0x22 :: (lit "avg_packet_loss" ++ [0x22, 0x3A]) := rfl
  unfold deviceJson DeviceInfo.fields
  simp only [hcomma, hquote, hbrace, hid, hname, hseen, htests, hspeed, hlatency, hloss,
    rawMembers_string, rawMembers_number, rawMembers_last_number, List.append_assoc,
    List.cons_append, List.nil_append]

theorem recordJson_eq (record : HistoryRecord) :
    recordJson record = 0x7B :: rawMembers record.fields := by
  obtain ⟨hcomma, hquote, -, hbrace⟩ := lit_punctuation
  have hid : lit "\x7b\"id\":" = 0x7B :: 0x22 :: (lit "id" ++ [0x22, 0x3A]) := rfl
  have hname : lit "\"device_name\":\"" = 0x22 :: (lit "device_name" ++ [0x22, 0x3A, 0x22]) := rfl
  have hspeed : lit "\"speed_mbps\":" = 0x22 :: (lit "speed_mbps" ++ [0x22, 0x3A]) := rfl
  have hcreated : lit "\"created_at\":\"" = 0x22 :: (lit "created_at" ++ [0x22, 0x3A, 0x22]) := rfl
  unfold recordJson HistoryRecord.fields
  simp only [hcomma, hquote, hbrace, hid, hname, hspeed, hcreated, rawMembers_string,
    rawMembers_number, rawMembers_last_string, List.append_assoc, List.cons_append,
    List.nil_append]

/-! ## Numbers -/

/-- What is printed of a number: the text of one, or of an infinity, or of no number. -/
def Printed (t : Bytes) : Prop :=
  (Json.isNumber t = true ∧ ∀ c ∈ t, Json.isNumberByte c = true)
    ∨ t ∈ [lit "inf", lit "-inf", lit "nan", lit "-nan"]

/-- **A printed number is read if it is one.** -/
theorem readValue_of_printed {t : Bytes} (ht : Printed t) {c : UInt8}
    (hc : Json.isNumberByte c = false) (n : ℕ) (s : Bytes) :
    Json.readValue (n + 1) (t ++ c :: s)
      = if Json.isNumber t then some (.number t, c :: s) else none := by
  rcases ht with ⟨hnumber, hbytes⟩ | hword
  · obtain ⟨d, t, rfl⟩ : ∃ d t', t = d :: t' := by
      cases t with
      | nil => cases hnumber
      | cons d t => exact ⟨d, t, rfl⟩
    have hd := forall_byte (P := fun d => Json.isNumberByte d = true →
      Json.isSpace d = false ∧ (d ≠ 0x22 ∧ d ≠ 0x5B ∧ d ≠ 0x7B ∧ d ≠ 0x74 ∧ d ≠ 0x66) ∧ d ≠ 0x6E)
      (by decide +kernel) d (hbytes d List.mem_cons_self)
    rw [List.cons_append, Json.readValue_number hd.1 hd.2.1 (fun h => absurd h hd.2.2),
      ← List.cons_append]
    exact Json.readNumber_append hbytes hc s
  · have hread : ∀ w ∈ [lit "inf", lit "-inf", lit "nan", lit "-nan"],
        ∃ d w', w = d :: w' ∧ Json.isSpace d = false
          ∧ (d ≠ 0x22 ∧ d ≠ 0x5B ∧ d ≠ 0x7B ∧ d ≠ 0x74 ∧ d ≠ 0x66)
          ∧ (d = 0x6E → w'.head? = some 0x61) ∧ Json.isNumber w = false
          ∧ (∃ x e w'', w = x ++ e :: w'' ∧ (∀ b ∈ x, Json.isNumberByte b = true)
            ∧ Json.isNumberByte e = false ∧ Json.isNumber x = false) := by
      intro w hw
      simp only [List.mem_cons, List.not_mem_nil, or_false] at hw
      rcases hw with rfl | rfl | rfl | rfl
      · exact ⟨0x69, [0x6E, 0x66], rfl, rfl, by decide, by decide, rfl, [], 0x69, [0x6E, 0x66], rfl,
          nofun, rfl, rfl⟩
      · exact ⟨0x2D, [0x69, 0x6E, 0x66], rfl, rfl, by decide, by decide, rfl, [0x2D], 0x69,
          [0x6E, 0x66], rfl, List.forall_mem_singleton.mpr rfl, rfl, rfl⟩
      · exact ⟨0x6E, [0x61, 0x6E], rfl, rfl, by decide, by decide, rfl, [], 0x6E, [0x61, 0x6E], rfl,
          nofun, rfl, rfl⟩
      · exact ⟨0x2D, [0x6E, 0x61, 0x6E], rfl, rfl, by decide, by decide, rfl, [0x2D], 0x6E,
          [0x61, 0x6E], rfl, List.forall_mem_singleton.mpr rfl, rfl, rfl⟩
    obtain ⟨d, w, rfl, hspace, hstart, hn, hno, x, e, w', hx, hbytes, he, hnot⟩ := hread t hword
    have hhead : d = 0x6E → (w ++ c :: s).head? ≠ some 0x75 := by
      intro hd
      rw [List.head?_append, hn hd]
      show some (0x61 : UInt8) ≠ some 0x75
      decide
    rw [List.cons_append, Json.readValue_number hspace hstart hhead, ← List.cons_append, hx,
      List.append_assoc, List.cons_append, Json.readNumber_append hbytes he, ← hx, hno, hnot]
    rfl

theorem toDecimal_head {n : ℕ} (hn : 0 < n) : ∃ c s, toDecimal n = c :: s ∧ c ≠ 0x30 := by
  induction n using Nat.strongRecOn with
  | _ n ih =>
    rw [toDecimal_eq]
    by_cases hsmall : n < 10
    · rw [if_pos hsmall]
      refine ⟨_, [], rfl, fun heq => ?_⟩
      have hnat := congrArg UInt8.toNat heq
      rw [toNat_digit] at hnat
      have hzero : (0x30 : UInt8).toNat = 0x30 := rfl
      omega
    · obtain ⟨c, s, hcs, hc⟩ := ih (n / 10) (by omega) (by omega)
      rw [if_neg hsmall, hcs]
      exact ⟨c, _, rfl, hc⟩

/-- The digits of a number are an integer part, whatever follows. -/
theorem isUnsigned_toDecimal (n : ℕ) {s : Bytes} (hs : ∀ c ∈ s.head?, Json.isDigit c = false) :
    Json.isUnsigned (toDecimal n ++ s) = Json.isFraction s := by
  have hdigits : ∀ c ∈ toDecimal n, Json.isDigit c = true :=
    fun c hc => isDigit_of_mem_toDecimal hc
  have hstop : s.takeWhile Json.isDigit = [] ∧ s.dropWhile Json.isDigit = s := by
    cases s with
    | nil => exact ⟨rfl, rfl⟩
    | cons c s =>
      have hc : ¬ Json.isDigit c = true := by
        rw [hs c rfl]
        exact Bool.false_ne_true
      exact ⟨List.takeWhile_cons_of_neg hc, List.dropWhile_cons_of_neg hc⟩
  have htake : (toDecimal n ++ s).takeWhile Json.isDigit = toDecimal n := by
    rw [List.takeWhile_append_of_pos hdigits, hstop.1, List.append_nil]
  have hdrop : (toDecimal n ++ s).dropWhile Json.isDigit = s := by
    rw [List.dropWhile_append_of_pos hdigits, hstop.2]
  rw [Json.isUnsigned, htake, hdrop]
  rcases Nat.eq_zero_or_pos n with rfl | hpos
  · rfl
  · obtain ⟨c, t, hct, hc⟩ := toDecimal_head hpos
    rw [hct]
    cases t with
    | nil => rfl
    | cons d t =>
      dsimp only
      rw [bne_iff_ne.mpr hc, Bool.true_and]

theorem isNumberByte_of_isDigit {c : UInt8} (hc : isDigit c = true) :
    Json.isNumberByte c = true :=
  forall_byte (P := fun c => isDigit c = true → Json.isNumberByte c = true) (by decide +kernel) c hc

/-- A number without a sign is one with any sign. -/
theorem isNumber_of_isUnsigned {s : Bytes} (hs : Json.isUnsigned s = true)
    (hhead : ∃ c t, s = c :: t ∧ isDigit c = true) :
    Json.isNumber s = true ∧ Json.isNumber (0x2D :: s) = true := by
  obtain ⟨c, t, rfl, hc⟩ := hhead
  refine ⟨?_, hs⟩
  unfold Json.isNumber
  split
  · rename_i heq
    obtain ⟨rfl, -⟩ := List.cons.inj heq
    cases hc
  · exact hs

theorem exists_toDecimal (n : ℕ) (s : Bytes) :
    ∃ c t, toDecimal n ++ s = c :: t ∧ isDigit c = true := by
  obtain ⟨c, t, hct⟩ := List.exists_cons_of_ne_nil (toDecimal_ne_nil n)
  exact ⟨c, t ++ s, by rw [hct, List.cons_append],
    isDigit_of_mem_toDecimal (n := n) (by rw [hct]; exact List.mem_cons_self)⟩

/-- An `int` is printed as a number. -/
theorem isNumber_intToDecimal (n : ℤ) :
    Json.isNumber (intToDecimal n) = true ∧ ∀ c ∈ intToDecimal n, Json.isNumberByte c = true := by
  have hnat : ∀ n : ℕ, Json.isNumber (toDecimal n) = true
      ∧ Json.isNumber (0x2D :: toDecimal n) = true := by
    intro n
    have hunsigned := isUnsigned_toDecimal n (s := []) nofun
    rw [List.append_nil] at hunsigned
    have hhead := exists_toDecimal n []
    rw [List.append_nil] at hhead
    exact isNumber_of_isUnsigned hunsigned hhead
  cases n with
  | ofNat n =>
    exact ⟨(hnat n).1, fun c hc => isNumberByte_of_isDigit (isDigit_of_mem_toDecimal hc)⟩
  | negSucc n =>
    refine ⟨(hnat (n + 1)).2, fun c hc => ?_⟩
    rcases List.mem_cons.mp hc with rfl | hc
    · rfl
    · exact isNumberByte_of_isDigit (isDigit_of_mem_toDecimal hc)

theorem isDigit_of_mem_sixDigits {n : ℕ} {c : UInt8} (hc : c ∈ sixDigits n) :
    isDigit c = true := by
  obtain ⟨p, -, rfl⟩ := List.mem_map.mp hc
  have hlast := toNat_digit (n / p)
  simp only [isDigit, Bool.and_eq_true, decide_eq_true_eq, UInt8.le_iff_toNat_le, hlast]
  exact ⟨Nat.le_add_right _ _, by show _ ≤ 57; omega⟩

/-- **A `double` is printed as a number exactly if it is finite.** -/
theorem isNumber_doubleToDecimal (x : Double) :
    Printed (doubleToDecimal x) ∧ (Json.isNumber (doubleToDecimal x) = true ↔ x.IsFinite) := by
  cases x with
  | infinite negative =>
    cases negative
    · exact ⟨.inr (by decide), iff_of_false (by decide) id⟩
    · exact ⟨.inr (by decide), iff_of_false (by decide) id⟩
  | nan negative =>
    cases negative
    · exact ⟨.inr (by decide), iff_of_false (by decide) id⟩
    · exact ⟨.inr (by decide), iff_of_false (by decide) id⟩
  | finite negative n =>
    set body := toDecimal (n / 1000000) ++ 0x2E :: sixDigits n with hbody
    have hsix : (sixDigits n).takeWhile isDigit = sixDigits n
        ∧ (sixDigits n).dropWhile isDigit = [] := by
      have hall : ∀ c ∈ sixDigits n, isDigit c = true := fun c => isDigit_of_mem_sixDigits
      exact ⟨List.takeWhile_eq_self_iff.mpr hall, List.dropWhile_eq_nil_iff.mpr hall⟩
    have hfraction : Json.isFraction (0x2E :: sixDigits n) = true := by
      show (!((sixDigits n).takeWhile isDigit).isEmpty
        && Json.isExponent ((sixDigits n).dropWhile isDigit)) = true
      rw [hsix.1, hsix.2]
      rfl
    have hunsigned : Json.isUnsigned body = true := by
      rw [hbody, isUnsigned_toDecimal _ (by rintro c ⟨⟩; rfl), hfraction]
    have hbytes : ∀ c ∈ body, Json.isNumberByte c = true := by
      intro c hc
      rcases List.mem_append.mp hc with hint | hpoint
      · exact isNumberByte_of_isDigit (isDigit_of_mem_toDecimal hint)
      · rcases List.mem_cons.mp hpoint with rfl | hdigit
        · rfl
        · exact isNumberByte_of_isDigit (isDigit_of_mem_sixDigits hdigit)
    obtain ⟨hplus, hminus⟩ := isNumber_of_isUnsigned hunsigned (exists_toDecimal _ _)
    cases negative with
    | false => exact ⟨.inl ⟨hplus, hbytes⟩, iff_of_true hplus trivial⟩
    | true =>
      exact ⟨.inl ⟨hminus, List.forall_mem_cons.mpr ⟨rfl, hbytes⟩⟩, iff_of_true hminus trivial⟩

/-! ## Reading the objects back -/

/-- A value that is read as it was written. -/
def Readable : FlatValue → Prop
  | .string s => ∀ c ∈ s, Json.isPlain c = true
  | .number t => Json.isNumber t = true

/-- A member with a plain name in ASCII, and with a number if it has no string. -/
def RegularField (f : Bytes × FlatValue) : Prop :=
  (∀ c ∈ f.1, Json.isPlain c = true ∧ c < 0x80) ∧ ∀ t, f.2 = .number t → Printed t

/-- The string members of an object. -/
def rawStrings (fs : List (Bytes × FlatValue)) : List (Bytes × Bytes) :=
  fs.filterMap fun f =>
    match f.2 with
    | .string s => some (f.1, s)
    | .number _ => none

/-- Plain bytes up to the next quote, or up to the end. -/
def Quiet (s : Bytes) : Prop :=
  ∃ plain behind, s = plain ++ behind ∧ (∀ c ∈ plain, Json.isPlain c = true)
    ∧ (behind = [] ∨ ∃ t, behind = 0x22 :: t)

theorem Quiet.cons {c : UInt8} (hc : Json.isPlain c = true) {s : Bytes} (h : Quiet s) :
    Quiet (c :: s) := by
  obtain ⟨plain, behind, rfl, hplain, hbehind⟩ := h
  exact ⟨c :: plain, behind, rfl, List.forall_mem_cons.mpr ⟨hc, hplain⟩, hbehind⟩

theorem quiet_quote (s : Bytes) : Quiet (0x22 :: s) := ⟨[], _, rfl, nofun, .inr ⟨s, rfl⟩⟩

/-- What follows a value: a plain byte that cannot belong to a number, and plain bytes up to the
next quote. -/
def Ends (s : Bytes) : Prop :=
  ∃ c t, s = c :: t ∧ Json.isPlain c = true ∧ Json.isNumberByte c = false ∧ Quiet t

variable {n : ℕ} {v : Json.Value} {s rest more : Bytes}

/-- The value that is read is the value that was written. -/
def Same (value : FlatValue) (v : Json.Value) : Prop :=
  match value with
  | .string s => v = .string s
  | .number t => v = .number t

/-- **A value that is read with its string** was readable, and all of it was read. -/
theorem readable_of_readValue {value : FlatValue} (hvalue : ∀ t, value = .number t → Printed t)
    (hmore : Ends more) (h : Json.readValue n (rawValue value ++ more) = some (v, rest))
    (hv : ∀ s x, value = .string s → v = .string x → x = s) :
    Readable value ∧ Same value v ∧ rest = more := by
  obtain ⟨c, t, rfl, hc, hnumber, hquiet⟩ := hmore
  cases n with
  | zero => cases h
  | succ n =>
    cases value with
    | string s =>
      have htext : rawValue (.string s) ++ c :: t = 0x22 :: (s ++ 0x22 :: c :: t) := by
        simp [rawValue]
      rw [htext, Json.readValue_string, Option.map_eq_some_iff] at h
      obtain ⟨⟨x, rest'⟩, hx, heq⟩ := h
      obtain ⟨rfl, rfl⟩ := Prod.mk.inj heq
      obtain rfl := hv s x rfl rfl
      obtain ⟨plain, behind, rfl, hplain, hbehind⟩ := hquiet
      obtain ⟨hall, hrest⟩ := Json.readString_eq_self (List.forall_mem_cons.mpr ⟨hc, hplain⟩)
        (List.cons_ne_nil _ _) hbehind hx
      exact ⟨hall, rfl, hrest⟩
    | number t' =>
      rw [rawValue, readValue_of_printed (hvalue t' rfl) hnumber] at h
      split at h
      · rename_i hread
        exact ⟨hread, (Prod.mk.inj (Option.some.inj h)).1.symm,
          (Prod.mk.inj (Option.some.inj h)).2.symm⟩
      · cases h

/-- **A readable value is read.** -/
theorem readValue_of_readable {value : FlatValue} (hvalue : ∀ t, value = .number t → Printed t)
    (hread : Readable value) (hmore : Ends more) (n : ℕ) :
    ∃ v, Json.readValue (n + 1) (rawValue value ++ more) = some (v, more) ∧ Same value v := by
  obtain ⟨c, t, rfl, hc, hnumber, -⟩ := hmore
  cases value with
  | string s =>
    have htext : rawValue (.string s) ++ c :: t = 0x22 :: (s ++ 0x22 :: c :: t) := by
      simp [rawValue]
    refine ⟨.string s, ?_, rfl⟩
    rw [htext, Json.readValue_string, Json.readString_append hread
      (by rw [List.length_append, List.length_cons]; omega)]
    rfl
  | number t' =>
    refine ⟨.number t', ?_, rfl⟩
    rw [rawValue, readValue_of_printed (hvalue t' rfl) hnumber,
      if_pos (show Json.isNumber t' = true from hread)]

/-- The string members of an object whose first member is known. -/
theorem stringMembers_cons_iff {f : Bytes × FlatValue} {fs : List (Bytes × FlatValue)}
    {members : List (Bytes × Json.Value)} (hsame : Same f.2 v) :
    stringMembers ((f.1, v) :: members) = rawStrings (f :: fs)
      ↔ stringMembers members = rawStrings fs := by
  obtain ⟨name, value⟩ := f
  cases value with
  | string s =>
    obtain rfl : v = .string s := hsame
    exact List.cons_inj_right (name, s)
  | number t =>
    obtain rfl : v = .number t := hsame
    exact Iff.rfl

/-- A string that is read is the first of the string members. -/
theorem eq_of_stringMembers {f : Bytes × FlatValue} {fs : List (Bytes × FlatValue)}
    {members : List (Bytes × Json.Value)}
    (h : stringMembers ((f.1, v) :: members) = rawStrings (f :: fs)) (s x : Bytes)
    (hs : f.2 = .string s) (hx : v = .string x) : x = s := by
  obtain ⟨name, value⟩ := f
  dsimp only at hs
  subst hs hx
  exact (Prod.mk.inj (List.cons.inj h).1).2

/-- What follows a member: the closing brace, or a comma and the next member. -/
theorem ends_members (fs : List (Bytes × FlatValue)) (hrest : Quiet rest) :
    Ends ((if fs.isEmpty then [0x7D] else 0x2C :: rawMembers fs) ++ rest) := by
  cases fs with
  | nil => exact ⟨0x7D, rest, rfl, rfl, rfl, hrest⟩
  | cons f fs => exact ⟨0x2C, _, rfl, rfl, rfl, quiet_quote _⟩

/-- Members and what follows them, from the first one on. -/
theorem rawMembers_cons_append (f : Bytes × FlatValue) (fs : List (Bytes × FlatValue)) :
    rawMembers (f :: fs) ++ more = 0x22 :: (f.1 ++ 0x22 :: 0x3A :: (rawValue f.2
      ++ ((if fs.isEmpty then [0x7D] else 0x2C :: rawMembers fs) ++ more))) := by
  rw [rawMembers]
  simp only [List.cons_append, List.append_assoc]

/-- **Members that are read with their strings** were readable, and all of them were read. -/
theorem readable_of_readMembers {fs : List (Bytes × FlatValue)} (hne : fs ≠ [])
    (hfs : ∀ f ∈ fs, RegularField f) (hquiet : Quiet more) {members : List (Bytes × Json.Value)}
    (h : Json.readMembers n (rawMembers fs ++ more) = some (members, rest))
    (hstrings : stringMembers members = rawStrings fs) :
    (∀ f ∈ fs, Readable f.2) ∧ rest = more := by
  induction fs generalizing n members with
  | nil => exact absurd rfl hne
  | cons f fs ih =>
    obtain ⟨hascii, hprinted⟩ := hfs f List.mem_cons_self
    have hname : ∀ c ∈ f.1, Json.isPlain c = true := fun c hc => (hascii c hc).1
    rw [rawMembers_cons_append] at h
    cases n with
    | zero => cases h
    | succ n =>
      obtain ⟨v, s', members', hv, rfl⟩ := Json.exists_of_readMembers hname h
      obtain ⟨hread, hsame, rfl⟩ := readable_of_readValue hprinted (ends_members fs hquiet) hv
        (eq_of_stringMembers hstrings)
      rw [stringMembers_cons_iff hsame] at hstrings
      cases fs with
      | nil =>
        rw [Json.readMembers_last hname hv] at h
        cases h
        exact ⟨List.forall_mem_singleton.mpr hread, rfl⟩
      | cons g gs =>
        rw [Json.readMembers_more hname hv, Option.map_eq_some_iff] at h
        obtain ⟨⟨ms, t⟩, hms, heq⟩ := h
        obtain ⟨hcons, rfl⟩ := Prod.mk.inj heq
        obtain ⟨-, rfl⟩ := List.cons.inj hcons
        obtain ⟨hall, hrest⟩ := ih (List.cons_ne_nil _ _)
          (fun f hf => hfs f (List.mem_cons_of_mem _ hf)) hms hstrings
        exact ⟨List.forall_mem_cons.mpr ⟨hread, hall⟩, hrest⟩

/-- **Readable members are read.** -/
theorem readMembers_of_readable {fs : List (Bytes × FlatValue)} (hne : fs ≠ [])
    (hfs : ∀ f ∈ fs, RegularField f) (hread : ∀ f ∈ fs, Readable f.2) (hquiet : Quiet more)
    (hn : (rawMembers fs).length ≤ n) :
    ∃ members, Json.readMembers n (rawMembers fs ++ more) = some (members, more)
      ∧ stringMembers members = rawStrings fs := by
  induction fs generalizing n with
  | nil => exact absurd rfl hne
  | cons f fs ih =>
    obtain ⟨hascii, hprinted⟩ := hfs f List.mem_cons_self
    have hname : ∀ c ∈ f.1, Json.isPlain c = true := fun c hc => (hascii c hc).1
    rw [rawMembers_cons_append]
    obtain ⟨m, rfl⟩ : ∃ m, n = m + 2 := by
      refine ⟨n - 2, ?_⟩
      rw [rawMembers] at hn
      simp only [List.length_cons, List.length_append] at hn
      omega
    obtain ⟨v, hv, hsame⟩ := readValue_of_readable hprinted (hread f List.mem_cons_self)
      (ends_members fs hquiet) m
    cases fs with
    | nil =>
      refine ⟨[(f.1, v)], Json.readMembers_last hname hv, ?_⟩
      exact (stringMembers_cons_iff hsame).mpr rfl
    | cons g gs =>
      have hlength : (rawMembers (g :: gs)).length ≤ m + 1 := by
        rw [rawMembers, if_neg (by simp)] at hn
        simp only [List.length_cons, List.length_append] at hn ⊢
        omega
      obtain ⟨members, hms, hstrings⟩ := ih (List.cons_ne_nil _ _)
        (fun f hf => hfs f (List.mem_cons_of_mem _ hf))
        (fun f hf => hread f (List.mem_cons_of_mem _ hf)) hlength
      refine ⟨(f.1, v) :: members, ?_, (stringMembers_cons_iff hsame).mpr hstrings⟩
      have hmore := Json.readMembers_more (t := rawMembers (g :: gs) ++ more) hname hv
      rw [hmore, hms]
      rfl

/-! ## Reading the array back -/

/-- An object of an answer: it has members, and they are regular. -/
def RegularRow (r : List (Bytes × FlatValue)) : Prop := r ≠ [] ∧ ∀ f ∈ r, RegularField f

/-- What follows an object: the closing bracket, or a comma and the next object. -/
theorem quiet_rows {rs : List (List (Bytes × FlatValue))} (hrs : ∀ r ∈ rs, RegularRow r) :
    Quiet (if rs.isEmpty then [0x5D] else 0x2C :: rawRows rs) := by
  match rs with
  | [] => exact ⟨[0x5D], [], rfl, List.forall_mem_singleton.mpr rfl, .inl rfl⟩
  | [] :: rs => exact absurd rfl (hrs [] List.mem_cons_self).1
  | (f :: fs) :: rs => exact (((quiet_quote _).cons rfl).cons rfl)

theorem readValue_rawMembers {r : List (Bytes × FlatValue)} (hne : r ≠ []) (n : ℕ) (s : Bytes) :
    Json.readValue (n + 1) (0x7B :: (rawMembers r ++ s))
      = (Json.readMembers n (rawMembers r ++ s)).map fun (ms, s) => (.object ms, s) := by
  cases r with
  | nil => exact absurd rfl hne
  | cons f fs => exact Json.readValue_object n _

/-- **Objects that are read with their strings** were readable. -/
theorem readable_of_readElements {rows : List (List (Bytes × FlatValue))} (hne : rows ≠ [])
    (hrows : ∀ r ∈ rows, RegularRow r) {objects : List Json.Value}
    (h : Json.readElements n (rawRows rows) = some (objects, rest))
    (hshows : List.Forall₂ Shows (rows.map rawStrings) objects) :
    ∀ r ∈ rows, ∀ f ∈ r, Readable f.2 := by
  induction rows generalizing n objects with
  | nil => exact absurd rfl hne
  | cons r rs ih =>
    obtain ⟨hr, hfields⟩ := hrows r List.mem_cons_self
    have hrs : ∀ r ∈ rs, RegularRow r := fun r hr => hrows r (List.mem_cons_of_mem _ hr)
    rw [rawRows] at h
    cases n with
    | zero => cases h
    | succ n =>
      obtain ⟨v, s', objects', hv, rfl⟩ := Json.exists_of_readElements h
      obtain ⟨hshow, htail⟩ := List.forall₂_cons.mp hshows
      cases n with
      | zero => cases hv
      | succ n =>
        have hobject := hv
        rw [readValue_rawMembers hr, Option.map_eq_some_iff] at hobject
        obtain ⟨⟨ms, t⟩, hms, heq⟩ := hobject
        obtain ⟨rfl, rfl⟩ := Prod.mk.inj heq
        obtain ⟨hread, hrest⟩ := readable_of_readMembers hr hfields (quiet_rows hrs) hms hshow
        cases rs with
        | nil => exact List.forall_mem_singleton.mpr hread
        | cons r' rs' =>
          rw [hrest] at hv
          rw [Json.readElements_more (t := rawRows (r' :: rs')) hv, Option.map_eq_some_iff] at h
          obtain ⟨⟨vs, t⟩, hvs, heq⟩ := h
          obtain ⟨hcons, rfl⟩ := Prod.mk.inj heq
          obtain ⟨-, rfl⟩ := List.cons.inj hcons
          exact List.forall_mem_cons.mpr ⟨hread, ih (List.cons_ne_nil _ _) hrs hvs htail⟩

/-- **Readable objects are read.** -/
theorem readElements_of_readable {rows : List (List (Bytes × FlatValue))} (hne : rows ≠ [])
    (hrows : ∀ r ∈ rows, RegularRow r) (hread : ∀ r ∈ rows, ∀ f ∈ r, Readable f.2)
    (hn : (rawRows rows).length < n) :
    ∃ objects, Json.readElements n (rawRows rows) = some (objects, [])
      ∧ List.Forall₂ Shows (rows.map rawStrings) objects := by
  induction rows generalizing n with
  | nil => exact absurd rfl hne
  | cons r rs ih =>
    obtain ⟨hr, hfields⟩ := hrows r List.mem_cons_self
    have hrs : ∀ r ∈ rs, RegularRow r := fun r hr => hrows r (List.mem_cons_of_mem _ hr)
    obtain ⟨m, rfl⟩ : ∃ m, n = m + 2 := by
      refine ⟨n - 2, ?_⟩
      rw [rawRows, List.length_cons] at hn
      omega
    have hlength : (rawMembers r).length ≤ m := by
      rw [rawRows, List.length_cons, List.length_append] at hn
      omega
    obtain ⟨ms, hms, hstrings⟩ := readMembers_of_readable hr hfields
      (hread r List.mem_cons_self) (quiet_rows hrs) hlength
    have hv : Json.readValue (m + 1) (0x7B :: (rawMembers r
        ++ if rs.isEmpty then [0x5D] else 0x2C :: rawRows rs))
        = some (.object ms, if rs.isEmpty then [0x5D] else 0x2C :: rawRows rs) := by
      rw [readValue_rawMembers hr, hms]
      rfl
    rw [rawRows]
    cases rs with
    | nil => exact ⟨[.object ms], Json.readElements_last hv, .cons hstrings .nil⟩
    | cons r' rs' =>
      have hshort : (rawRows (r' :: rs')).length < m + 1 := by
        rw [rawRows, if_neg (by simp), List.length_cons, List.length_append, List.length_cons] at hn
        omega
      obtain ⟨objects, hobjects, hshows⟩ := ih (List.cons_ne_nil _ _) hrs
        (fun r hr => hread r (List.mem_cons_of_mem _ hr)) hshort
      refine ⟨.object ms :: objects, ?_, .cons hstrings hshows⟩
      have hmore := Json.readElements_more (t := rawRows (r' :: rs')) hv
      rw [hmore, hobjects]
      rfl

/-! ## The encoding -/

/-- A value whose bytes are UTF-8. -/
def Encoded : FlatValue → Prop
  | .string s => Utf8.isValid s = true
  | .number _ => True

theorem ascii_of_printed {t : Bytes} (ht : Printed t) : ∀ c ∈ t, c < 0x80 := by
  rcases ht with ⟨-, hbytes⟩ | hword
  · exact fun c hc => forall_byte (P := fun c => Json.isNumberByte c = true → c < 0x80)
      (by decide +kernel) c (hbytes c hc)
  · have hall : [lit "inf", lit "-inf", lit "nan", lit "-nan"].all
        (fun w => w.all fun c => decide (c < 0x80)) = true := rfl
    exact fun c hc => of_decide_eq_true
      (List.all_eq_true.mp (List.all_eq_true.mp hall t hword) c hc)

theorem isValid_rawValue {value : FlatValue} (hvalue : ∀ t, value = .number t → Printed t)
    (s : Bytes) :
    Utf8.isValid (rawValue value ++ s) = true ↔ Encoded value ∧ Utf8.isValid s = true := by
  cases value with
  | string t =>
    have htext : rawValue (.string t) ++ s = 0x22 :: (t ++ 0x22 :: s) := by
      simp [rawValue]
    rw [htext, Utf8.isValid_ascii_cons (by decide), Utf8.isValid_append_cons (by decide)]
    exact Iff.rfl
  | number t =>
    rw [rawValue, Utf8.isValid_ascii_append (ascii_of_printed (hvalue t rfl))]
    exact (and_iff_right trivial).symm

theorem isValid_rawMembers {fs : List (Bytes × FlatValue)} (hfs : ∀ f ∈ fs, RegularField f)
    (s : Bytes) : Utf8.isValid (rawMembers fs ++ s) = true
      ↔ (∀ f ∈ fs, Encoded f.2) ∧ Utf8.isValid s = true := by
  induction fs with
  | nil =>
    rw [rawMembers, List.singleton_append, Utf8.isValid_ascii_cons (by decide)]
    exact ⟨fun h => ⟨nofun, h⟩, fun h => h.2⟩
  | cons f fs ih =>
    obtain ⟨hascii, hprinted⟩ := hfs f List.mem_cons_self
    have htext : rawMembers (f :: fs) ++ s = 0x22 :: (f.1 ++ 0x22 :: 0x3A :: (rawValue f.2
        ++ ((if fs.isEmpty then [0x7D] else 0x2C :: rawMembers fs) ++ s))) := by
      rw [rawMembers]
      simp only [List.cons_append, List.append_assoc]
    rw [htext, Utf8.isValid_ascii_cons (by decide),
      Utf8.isValid_ascii_append fun c hc => (hascii c hc).2, Utf8.isValid_ascii_cons (by decide),
      Utf8.isValid_ascii_cons (by decide), isValid_rawValue hprinted, List.forall_mem_cons,
      and_assoc]
    refine and_congr_right fun _ => ?_
    cases fs with
    | nil => exact ih nofun
    | cons g gs =>
      have hcomma : (if (g :: gs).isEmpty then [0x7D] else 0x2C :: rawMembers (g :: gs)) ++ s
          = 0x2C :: (rawMembers (g :: gs) ++ s) := rfl
      rw [hcomma, Utf8.isValid_ascii_cons (by decide)]
      exact ih fun f hf => hfs f (List.mem_cons_of_mem _ hf)

theorem isValid_rawRows {rows : List (List (Bytes × FlatValue))}
    (hrows : ∀ r ∈ rows, RegularRow r) :
    Utf8.isValid (rawRows rows) = true ↔ ∀ r ∈ rows, ∀ f ∈ r, Encoded f.2 := by
  induction rows with
  | nil => exact iff_of_true (by decide) nofun
  | cons r rs ih =>
    have hrs := ih fun r hr => hrows r (List.mem_cons_of_mem _ hr)
    have htext : rawRows (r :: rs)
        = 0x7B :: (rawMembers r ++ if rs.isEmpty then [0x5D] else 0x2C :: rawRows rs) := rfl
    rw [htext, Utf8.isValid_ascii_cons (by decide),
      isValid_rawMembers (hrows r List.mem_cons_self).2, List.forall_mem_cons]
    refine and_congr_right fun _ => ?_
    cases rs with
    | nil => exact hrs
    | cons r' rs' =>
      have hcomma : (if (r' :: rs').isEmpty then [0x5D] else 0x2C :: rawRows (r' :: rs'))
          = 0x2C :: rawRows (r' :: rs') := rfl
      rw [hcomma, Utf8.isValid_ascii_cons (by decide), hrs]

/-! ## When the answers are well formed -/

/-- **When an array of objects is read back** with its strings. -/
theorem showsAll_iff (rows : List (List (Bytes × FlatValue)))
    (hrows : ∀ r ∈ rows, RegularRow r) :
    ShowsAll (0x5B :: rawRows rows) (rows.map rawStrings)
      ↔ ∀ r ∈ rows, ∀ f ∈ r, Readable f.2 ∧ Encoded f.2 := by
  have hvalid : Utf8.isValid (0x5B :: rawRows rows) = true ↔ ∀ r ∈ rows, ∀ f ∈ r, Encoded f.2 := by
    rw [← isValid_rawRows hrows, Utf8.isValid_ascii_cons (by decide)]
  cases rows with
  | nil => exact iff_of_true ⟨[], rfl, .nil⟩ nofun
  | cons r rs =>
    have harray : ∀ n, Json.readValue (n + 1) (0x5B :: rawRows (r :: rs))
        = Option.map _ (Json.readElements n (rawRows (r :: rs))) :=
      fun n => Json.readValue_array n _
    have hne : r :: rs ≠ [] := List.cons_ne_nil _ _
    unfold ShowsAll Json.parse
    constructor
    · rintro ⟨objects, hparse, hshows⟩
      split at hparse
      · rename_i hutf
        rw [harray, Option.bind_eq_some_iff] at hparse
        obtain ⟨⟨v, t⟩, hread, hend⟩ := hparse
        rw [Option.map_eq_some_iff] at hread
        obtain ⟨⟨vs, t'⟩, helements, heq⟩ := hread
        obtain ⟨rfl, rfl⟩ := Prod.mk.inj heq
        dsimp only at hend
        split at hend
        · obtain rfl := Json.Value.array.inj (Option.some.inj hend)
          have hall := readable_of_readElements hne hrows helements hshows
          exact fun r hr f hf => ⟨hall r hr f hf, hvalid.mp hutf r hr f hf⟩
        · cases hend
      · cases hparse
    · intro hall
      obtain ⟨objects, helements, hshows⟩ := readElements_of_readable
        (n := 2 * (0x5B :: rawRows (r :: rs)).length + 1) hne hrows
        (fun r hr f hf => (hall r hr f hf).1) (by rw [List.length_cons]; omega)
      refine ⟨objects, ?_, hshows⟩
      rw [if_pos (hvalid.mpr fun r hr f hf => (hall r hr f hf).2), harray, helements]
      rfl

/-- The object of a device shows it exactly if that can be shown. -/
theorem DeviceInfo.presentable_iff (device : DeviceInfo) :
    (∀ f ∈ device.fields, Readable f.2 ∧ Encoded f.2) ↔ device.Presentable := by
  have hspeed := (isNumber_doubleToDecimal device.avgSpeed).2
  have hloss := (isNumber_doubleToDecimal device.avgPacketLoss).2
  have htests := (isNumber_intToDecimal device.totalTests).1
  have hlatency := (isNumber_intToDecimal device.avgLatency).1
  simp only [DeviceInfo.fields, List.forall_mem_cons, Readable, Encoded, hspeed, hloss, htests,
    hlatency, Presentable, PlainText]
  tauto

theorem HistoryRecord.presentable_iff (record : HistoryRecord) :
    (∀ f ∈ record.fields, Readable f.2 ∧ Encoded f.2) ↔ record.Presentable := by
  have hspeed := (isNumber_doubleToDecimal record.speedMbps).2
  have hid := (isNumber_intToDecimal record.id).1
  simp only [HistoryRecord.fields, List.forall_mem_cons, Readable, Encoded, hspeed, hid,
    Presentable, PlainText]
  tauto

theorem printed_intToDecimal (n : ℤ) : Printed (intToDecimal n) := .inl (isNumber_intToDecimal n)

/-- The names of the members need no escapes. -/
theorem plain_of_all {names : List Bytes}
    (h : names.all (fun name => name.all fun c => Json.isPlain c && decide (c < 0x80)) = true) :
    ∀ name ∈ names, ∀ c ∈ name, Json.isPlain c = true ∧ c < 0x80 := by
  intro name hname c hc
  have hbyte := List.all_eq_true.mp (List.all_eq_true.mp h name hname) c hc
  rwa [Bool.and_eq_true, decide_eq_true_eq] at hbyte

theorem DeviceInfo.regular (device : DeviceInfo) : RegularRow device.fields := by
  have hnames : ∀ name ∈ [lit "device_id", lit "device_name", lit "last_seen", lit "total_tests",
      lit "avg_speed", lit "avg_latency", lit "avg_packet_loss"],
      ∀ c ∈ name, Json.isPlain c = true ∧ c < 0x80 :=
    plain_of_all rfl
  refine ⟨List.cons_ne_nil _ _, fun f hf => ⟨hnames f.1 (List.mem_map_of_mem hf), ?_⟩⟩
  intro t ht
  simp only [DeviceInfo.fields, List.mem_cons, List.not_mem_nil, or_false] at hf
  rcases hf with rfl | rfl | rfl | rfl | rfl | rfl | rfl
  · cases ht
  · cases ht
  · cases ht
  · rw [← FlatValue.number.inj ht]
    exact printed_intToDecimal _
  · rw [← FlatValue.number.inj ht]
    exact (isNumber_doubleToDecimal _).1
  · rw [← FlatValue.number.inj ht]
    exact printed_intToDecimal _
  · rw [← FlatValue.number.inj ht]
    exact (isNumber_doubleToDecimal _).1

theorem HistoryRecord.regular (record : HistoryRecord) : RegularRow record.fields := by
  have hnames : ∀ name ∈ [lit "id", lit "device_name", lit "speed_mbps", lit "created_at"],
      ∀ c ∈ name, Json.isPlain c = true ∧ c < 0x80 :=
    plain_of_all rfl
  refine ⟨List.cons_ne_nil _ _, fun f hf => ⟨hnames f.1 (List.mem_map_of_mem hf), ?_⟩⟩
  intro t ht
  simp only [HistoryRecord.fields, List.mem_cons, List.not_mem_nil, or_false] at hf
  rcases hf with rfl | rfl | rfl | rfl
  · rw [← FlatValue.number.inj ht]
    exact printed_intToDecimal _
  · cases ht
  · rw [← FlatValue.number.inj ht]
    exact (isNumber_doubleToDecimal _).1
  · cases ht

/-- **When the answers are well formed.** For every list of devices and every list of records, the
bodies are JSON texts of arrays with one object for each element, in order, that have the strings
of the element, exactly if these strings are UTF-8 without control characters, quotes and
backslashes, and all numbers are finite. -/
theorem answers_wellFormed_iff (devices : List DeviceInfo) (records : List HistoryRecord)
    (resp : HttpResponse) :
    (ShowsAll (handleGetDevices (some devices) resp).body (devices.map DeviceInfo.strings)
        ↔ ∀ device ∈ devices, device.Presentable)
      ∧ (ShowsAll (handleGetHistory (some records) resp).body (records.map HistoryRecord.strings)
        ↔ ∀ record ∈ records, record.Presentable) := by
  have hdevices : (handleGetDevices (some devices) resp).body
      = 0x5B :: rawRows (devices.map DeviceInfo.fields) := by
    rw [← jsonList_eq, List.map_map]
    show jsonList (devices.map deviceJson) = _
    exact congrArg jsonList (List.map_congr_left fun device _ => deviceJson_eq device)
  have hrecords : (handleGetHistory (some records) resp).body
      = 0x5B :: rawRows (records.map HistoryRecord.fields) := by
    rw [← jsonList_eq, List.map_map]
    show jsonList (records.map recordJson) = _
    exact congrArg jsonList (List.map_congr_left fun record _ => recordJson_eq record)
  constructor
  · have hshows := showsAll_iff (devices.map DeviceInfo.fields)
      (List.forall_mem_map.mpr fun device _ => device.regular)
    rw [List.map_map, List.forall_mem_map] at hshows
    rw [hdevices]
    refine hshows.trans (forall_congr' fun device => ?_)
    rw [device.presentable_iff]
  · have hshows := showsAll_iff (records.map HistoryRecord.fields)
      (List.forall_mem_map.mpr fun record _ => record.regular)
    rw [List.map_map, List.forall_mem_map] at hshows
    rw [hrecords]
    refine hshows.trans (forall_congr' fun record => ?_)
    rw [record.presentable_iff]

/-! ## What clients can store -/

/-- The identifier that `handleSaveRecord` takes out of a body. Without one it makes one up from a
random number. -/
def savedDeviceId (body random : Bytes) : Bytes :=
  if (findJsonValue body (lit "device_id")).isEmpty then lit "device_" ++ random
  else findJsonValue body (lit "device_id")

/-- The name that `handleSaveRecord` takes out of a body. -/
def savedDeviceName (body : Bytes) : Bytes :=
  if (findJsonValue body (lit "device_name")).isEmpty then lit "Unknown Device"
  else findJsonValue body (lit "device_name")

/-- What stands behind the key in quotes and a colon at the front of a body. -/
theorem valueBehind_front {key : Bytes} (hkey : 0x3A ∉ key) (s : Bytes) :
    valueBehind (0x22 :: (key ++ 0x22 :: 0x3A :: s)) key = some (s.dropWhile isBlank) := by
  have htext : 0x22 :: (key ++ 0x22 :: 0x3A :: s) = (0x22 :: key ++ [0x22]) ++ 0x3A :: s := by simp
  have hcolon : (0x3A : UInt8) ∉ 0x22 :: key ++ [0x22] := by
    simp only [List.cons_append, List.mem_cons, List.mem_append, List.not_mem_nil, or_false]
    rintro (hquote | hmem | hquote)
    · cases hquote
    · exact hkey hmem
    · cases hquote
  have hfind : Search.find [0x3A] ((0x22 :: key ++ [0x22]) ++ 0x3A :: s)
      = some (0x22 :: key ++ [0x22]).length := Search.find_append_pattern (p := []) hcolon s
  rw [valueBehind, htext, Search.find_of_prefix (List.prefix_append _ _), Option.bind_some,
    List.drop_zero, hfind, Option.map_some, Nat.zero_add, ← List.drop_drop, List.drop_left]
  rfl

/-- There is no blank in front of what stands behind the colon. -/
theorem isBlank_head_valueBehind {body key t : Bytes} (hbehind : valueBehind body key = some t) :
    ∀ c ∈ t.head?, isBlank c = false := by
  unfold valueBehind at hbehind
  simp only [Option.bind_eq_some_iff, Option.map_eq_some_iff] at hbehind
  obtain ⟨pos, -, colon, -, rfl⟩ := hbehind
  intro c hc
  have hhead := List.head?_dropWhile_not isBlank (body.drop (pos + (colon + 1)))
  rw [Option.mem_def.mp hc] at hhead
  exact hhead

/-- What is taken out of a body has no quotes, or stood there without quotes. -/
theorem findJsonValue_spec (body key : Bytes) :
    0x22 ∉ findJsonValue body key
      ∨ (∀ c ∈ findJsonValue body key, endsValue c = false)
        ∧ ∀ c ∈ (findJsonValue body key).head?, isBlank c = false ∧ c ≠ 0x22 := by
  cases hbehind : valueBehind body key with
  | none =>
    refine .inl ?_
    rw [findJsonValue, hbehind]
    exact List.not_mem_nil
  | some t =>
    by_cases hquote : t.head? = some 0x22
    · obtain ⟨s, rfl⟩ := List.head?_eq_some_iff.mp hquote
      refine .inl ?_
      rw [findJsonValue, hbehind]
      intro hmem
      have hstop : decide ((0x22 : UInt8) ≠ 0x22) = true :=
        List.mem_takeWhile_imp (p := (· ≠ 0x22)) (l := s) hmem
      exact absurd rfl (of_decide_eq_true hstop)
    · refine .inr ?_
      rw [findJsonValue_of_ne hquote hbehind]
      refine ⟨fun c hc => ?_, fun c hc => ?_⟩
      · have hends := List.mem_takeWhile_imp hc
        rwa [Bool.not_eq_true'] at hends
      · -- the first byte of the value is the first one behind the blanks
        have hfront : t.head? = some c := by
          obtain ⟨rest, hrest⟩ := List.head?_eq_some_iff.mp hc
          rw [← List.takeWhile_append_dropWhile (p := fun c => !endsValue c) (l := t), hrest]
          rfl
        refine ⟨isBlank_head_valueBehind hbehind c hfront, ?_⟩
        rintro rfl
        exact hquote hfront

/-- A string without quotes is taken out from between quotes. -/
theorem findJsonValue_quoted {key s : Bytes} (hkey : 0x3A ∉ key) (hs : 0x22 ∉ s) :
    findJsonValue (0x22 :: (key ++ 0x22 :: 0x3A :: 0x22 :: (s ++ [0x22]))) key = s := by
  have hbehind := valueBehind_front hkey (0x22 :: (s ++ [0x22]))
  rw [List.dropWhile_cons_of_neg (by decide)] at hbehind
  rw [findJsonValue, hbehind]
  exact (QuotedText.span_append hs []).1

/-- A string without commas and braces is taken out as it stands. -/
theorem findJsonValue_bare {key s : Bytes} (hkey : 0x3A ∉ key)
    (hends : ∀ c ∈ s, endsValue c = false) (hhead : ∀ c ∈ s.head?, isBlank c = false ∧ c ≠ 0x22) :
    findJsonValue (0x22 :: (key ++ 0x22 :: 0x3A :: (s ++ [0x7D]))) key = s := by
  have hbehind := valueBehind_front hkey (s ++ [0x7D])
  have hdrop : (s ++ [0x7D]).dropWhile isBlank = s ++ [0x7D] := by
    cases s with
    | nil => rfl
    | cons c s =>
      exact List.dropWhile_cons_of_neg (by rw [(hhead c rfl).1]; exact Bool.false_ne_true)
  have hquote : (s ++ [0x7D]).head? ≠ some 0x22 := by
    cases s with
    | nil => exact fun h => by cases h
    | cons c s => exact fun h => (hhead c rfl).2 (Option.some.inj h)
  rw [hdrop] at hbehind
  rw [findJsonValue_of_ne hquote hbehind,
    List.takeWhile_append_of_pos fun c hc => by rw [hends c hc]; rfl]
  exact List.append_nil _

/-- **What can be taken out of a body**: every string without quotes, and every string without
commas and braces that does not start with a blank or a quote. -/
theorem exists_findJsonValue_iff {key : Bytes} (hkey : 0x3A ∉ key) (s : Bytes) :
    (∃ body, findJsonValue body key = s)
      ↔ 0x22 ∉ s
        ∨ (∀ c ∈ s, endsValue c = false) ∧ ∀ c ∈ s.head?, isBlank c = false ∧ c ≠ 0x22 := by
  constructor
  · rintro ⟨body, rfl⟩
    exact findJsonValue_spec body key
  · rintro (hquote | ⟨hends, hhead⟩)
    · exact ⟨_, findJsonValue_quoted hkey hquote⟩
    · exact ⟨_, findJsonValue_bare hkey hends hhead⟩

/-- A request whose device has quotes in its identifier. -/
def quotedDevice : Bytes := lit "\x7b\"device_id\":\"say \\\"hi\\\"\",\"speed\":1\x7d"

/-- Its row in the table of devices. -/
def quotedRow : DeviceInfo :=
  ⟨savedDeviceId quotedDevice [], savedDeviceName quotedDevice, lit "2025-01-01 00:00:00", 1,
    .finite false 1000000, 0, .finite false 0⟩

/-- A backslash is left of the identifier, and the answer is no JSON text. -/
theorem quotedRow_not_shown :
    quotedRow.deviceId = lit "say \\"
      ∧ (Json.parse quotedDevice).isSome = true
      ∧ (Json.parse (handleGetDevices (some [quotedRow]) {}).body).isNone = true
      ∧ ¬ ShowsAll (handleGetDevices (some [quotedRow]) {}).body [quotedRow.strings] := by
  have hnone : (Json.parse (handleGetDevices (some [quotedRow]) {}).body).isNone = true := by
    decide +kernel
  refine ⟨by decide +kernel, by decide +kernel, hnone, ?_⟩
  rintro ⟨objects, hparse, -⟩
  rw [hparse] at hnone
  cases hnone
