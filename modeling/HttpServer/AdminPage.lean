import HttpServer.Markup
import HttpServer.SerialisedRequest
import Mathlib.Data.List.DropRight

/-!
# The page of the administrator

`handleAdminPage` of `application/http/handler/AdminPageHandler.cpp` streams the statistics, the
devices and the last records of the database into a page. The texts of the database, which are
what clients have sent, go into it as they are: the page has the tags that are written in the
source exactly if none of them has a `<` in it, and anyone may add elements to it, scripts
included.

The cell with the name of a device is ended by the tag of its table, not by its own. So the tags
of the page are nested only as long as no device is known (`adminPage_tags_iff`).

A `double` is streamed with six significant digits.
-/

/-! ## Numbers in a stream -/

/-- A `double`, as far as a stream tells one from another: zero, or six digits of which the first
one is not 0, with the power of ten of the first one, or none. -/
inductive StreamedDouble
  | zero (negative : Bool)
  | finite (negative : Bool) (digits : {n : ℕ // 100000 ≤ n ∧ n < 1000000}) (exponent : ℤ)
  | infinite (negative : Bool)
  | nan (negative : Bool)
  deriving DecidableEq

/-- The digits behind the point, without zeros at their end. -/
def fraction (digits : Bytes) : Bytes :=
  let kept := digits.rdropWhile (· == 0x30)
  if kept = [] then [] else 0x2E :: kept

/-- The exponent, with two digits at least. -/
def exponentText (exponent : ℤ) : Bytes :=
  lit "e" ++ (if exponent < 0 then lit "-" else lit "+")
    ++ ((if exponent.natAbs < 10 then lit "0" else []) ++ toDecimal exponent.natAbs)

/-- Six digits with their exponent, in the notation that is shorter for it. -/
def digitsText (digits : Bytes) (exponent : ℤ) : Bytes :=
  if exponent < -4 ∨ 6 ≤ exponent then
    digits.take 1 ++ fraction (digits.drop 1) ++ exponentText exponent
  else if exponent < 0 then
    lit "0." ++ List.replicate (exponent.natAbs - 1) 0x30 ++ digits.rdropWhile (· == 0x30)
  else
    digits.take (exponent.toNat + 1) ++ fraction (digits.drop (exponent.toNat + 1))

/-- `operator<<` of a stream with a `double`. -/
def streamedDouble : StreamedDouble → Bytes
  | .zero negative => if negative then lit "-0" else lit "0"
  | .finite negative digits exponent =>
    (if negative then lit "-" else []) ++ digitsText (toDecimal digits) exponent
  | .infinite negative => if negative then lit "-inf" else lit "inf"
  | .nan negative => if negative then lit "-nan" else lit "nan"

example : streamedDouble (.finite false ⟨123450, by decide⟩ 2) = lit "123.45" := by decide

/-! ## The source -/

/-- What the page shows of `StatsInfo`. -/
structure AdminStats where
  totalTests : ℤ
  avgSpeed : StreamedDouble
  maxSpeed : StreamedDouble
  avgLatency : StreamedDouble
  activeDevices : ℤ
  totalBytesTransferred : ℤ

/-- What it shows of `DeviceInfo`. -/
structure AdminDevice where
  deviceId : Bytes
  deviceName : Bytes
  totalTests : ℤ
  avgSpeed : StreamedDouble
  avgLatency : ℤ
  lastSeen : Bytes

/-- What it shows of `SpeedRecord`. -/
structure AdminRecord where
  id : ℤ
  deviceName : Bytes
  speedMbps : StreamedDouble
  uploadSpeedMbps : StreamedDouble
  latencyMs : ℤ
  createdAt : Bytes

namespace AdminPage

open Markup (Piece Tag)

/-- The text of the source in front of the statistics. -/
def head : Bytes :=
  [lit "\n<!DOCTYPE html>\n<html>\n<head>\n",
    lit "    <title>Admin Panel - Speed Test Server</title>\n    <style>\n",
    lit "        body \x7b font-family: Arial, sans-serif; margin: 20px; \x7d\n",
    lit "        table \x7b border-collapse: collapse; width: 100%; ",
    lit "margin-bottom: 20px; \x7d\n",
    lit "        th, td \x7b border: 1px solid #ddd; padding: 8px; text-align: left; \x7d\n",
    lit "        th \x7b background-color: #4CAF50; color: white; \x7d\n",
    lit "        .stats \x7b background-color: #f2f2f2; padding: 10px; ",
    lit "margin-bottom: 20px; border-radius: 5px; \x7d\n",
    lit "    </style>\n</head>\n<body>\n    <h1>Admin Panel</h1>\n    \n",
    lit "    <div class=\"stats\">\n        <h2>Statistics</h2>\n",
    lit "        <p>Total Tests: "].flatten

/-- The text between the statistics and the rows of the devices. -/
def devicesHead : Bytes :=
  [lit " MB</p>\n    </div>\n    \n    <h2>Devices</h2>\n    <table>\n",
    lit "        <tr><th>Device ID</th><th>Name</th><th>Tests</th><th>Avg Speed</th>",
    lit "<th>Avg Latency</th><th>Last Seen</th></tr>\n"].flatten

/-- The text between the rows of the devices and those of the records. -/
def recordsHead : Bytes :=
  [lit "\n    </table>\n    \n    <h2>Recent Tests (Last 20)</h2>\n    <table>\n",
    lit "        <tr><th>ID</th><th>Device</th><th>Download</th><th>Upload</th>",
    lit "<th>Latency</th><th>Time</th></tr>\n"].flatten

/-- The text at the end. -/
def foot : Bytes := lit "\n    </table>\n</body>\n</html>\n"

/-- What is streamed for the statistics. -/
def statsPieces (stats : AdminStats) : List (Piece UInt8) :=
  [.text (intToDecimal stats.totalTests),
    .markup (lit "</p>\n        <p>Average Speed: "), .text (streamedDouble stats.avgSpeed),
    .markup (lit " Mbps</p>\n        <p>Max Speed: "), .text (streamedDouble stats.maxSpeed),
    .markup (lit " Mbps</p>\n        <p>Average Latency: "),
    .text (streamedDouble stats.avgLatency),
    .markup (lit " ms</p>\n        <p>Active Devices: "), .text (intToDecimal stats.activeDevices),
    .markup (lit "</p>\n        <p>Total Data Transferred: "),
    .text (intToDecimal ((stats.totalBytesTransferred.tdiv 1024).tdiv 1024))]

/-- What is streamed for a device. -/
def devicePieces (device : AdminDevice) : List (Piece UInt8) :=
  [.markup (lit "<tr>"),
    .markup (lit "<td>"), .text device.deviceId, .markup (lit "</td>"),
    .markup (lit "<td>"), .text device.deviceName, .markup (lit "</table>"),
    .markup (lit "<td>"), .text (intToDecimal device.totalTests), .markup (lit "</td>"),
    .markup (lit "<td>"), .text (streamedDouble device.avgSpeed), .markup (lit " Mbps</td>"),
    .markup (lit "<td>"), .text (intToDecimal device.avgLatency), .markup (lit " ms</td>"),
    .markup (lit "<td>"), .text device.lastSeen, .markup (lit "</td>"),
    .markup (lit "</tr>")]

/-- What is streamed for a record. -/
def recordPieces (record : AdminRecord) : List (Piece UInt8) :=
  [.markup (lit "<tr>"),
    .markup (lit "<td>"), .text (intToDecimal record.id), .markup (lit "</td>"),
    .markup (lit "<td>"), .text record.deviceName, .markup (lit "</td>"),
    .markup (lit "<td>"), .text (streamedDouble record.speedMbps), .markup (lit " Mbps</td>"),
    .markup (lit "<td>"), .text (streamedDouble record.uploadSpeedMbps),
    .markup (lit " Mbps</td>"),
    .markup (lit "<td>"), .text (intToDecimal record.latencyMs), .markup (lit " ms</td>"),
    .markup (lit "<td>"), .text record.createdAt, .markup (lit "</td>"),
    .markup (lit "</tr>")]

/-- The pieces that `html` is streamed together of. -/
def pieces (stats : AdminStats) (devices : List AdminDevice) (history : List AdminRecord) :
    List (Piece UInt8) :=
  [.markup head] ++ statsPieces stats ++ [.markup devicesHead] ++ devices.flatMap devicePieces
    ++ [.markup recordsHead] ++ history.flatMap recordPieces ++ [.markup foot]

/-- The page. -/
def adminPage (stats : AdminStats) (devices : List AdminDevice) (history : List AdminRecord) :
    Bytes :=
  Markup.render (pieces stats devices history)

/-- `handleAdminPage`, with what the database returns if there is one. -/
def handleAdminPage (data : Option (AdminStats × List AdminDevice × List AdminRecord))
    (resp : HttpResponse) : HttpResponse :=
  match data with
  | none =>
    (resp.setBody (lit "<html><body><h1>Database not available</h1></body></html>")).setContentType
      (lit "text/html")
  | some (stats, devices, history) =>
    (resp.setBody (adminPage stats devices history)).setContentType (lit "text/html")

/-! ## The tags of the page -/

/-- The tags of a page. -/
def pageTags (page : Bytes) : List Bytes := Markup.tags 0x3C 0x3E page

/-- The tags that are written in the source, for so many devices and records. -/
def sourceTags (stats : AdminStats) (devices : List AdminDevice) (history : List AdminRecord) :
    List Bytes :=
  Markup.markupTags 0x3C 0x3E (pieces stats devices history)

/-- What a tag does: one with `/` ends an element, one with `!` is a declaration, and another one
begins the element whose name stands in front of its attributes. -/
def readTag : Bytes → Tag Bytes
  | 0x21 :: _ => .other
  | 0x2F :: name => .finish name
  | tag => .start (tag.takeWhile (· != 0x20))

/-- The texts of the database that a page shows. -/
def texts (devices : List AdminDevice) (history : List AdminRecord) : List Bytes :=
  devices.flatMap (fun device => [device.deviceId, device.deviceName, device.lastSeen])
    ++ history.flatMap fun record => [record.deviceName, record.createdAt]

/-! ## Numbers are plain -/

theorem notMem_toDecimal (n : ℕ) : (0x3C : UInt8) ∉ toDecimal n :=
  fun h => absurd (isDigit_of_mem_toDecimal h) (by decide)

theorem notMem_intToDecimal (n : ℤ) : (0x3C : UInt8) ∉ intToDecimal n := by
  cases n with
  | ofNat n => exact notMem_toDecimal n
  | negSucc n => exact List.not_mem_cons_of_ne_of_not_mem (by decide) (notMem_toDecimal _)

theorem notMem_fraction {digits : Bytes} (h : (0x3C : UInt8) ∉ digits) :
    (0x3C : UInt8) ∉ fraction digits := by
  unfold fraction
  dsimp only
  split
  · exact List.not_mem_nil
  · exact List.not_mem_cons_of_ne_of_not_mem (by decide)
      fun hmem => h ((List.rdropWhile_prefix _ _).subset hmem)

theorem notMem_exponentText (exponent : ℤ) : (0x3C : UInt8) ∉ exponentText exponent := by
  have hdigits := notMem_toDecimal exponent.natAbs
  unfold exponentText
  split <;> split <;> simpa [lit] using hdigits

theorem notMem_digitsText {digits : Bytes} (h : (0x3C : UInt8) ∉ digits) (exponent : ℤ) :
    (0x3C : UInt8) ∉ digitsText digits exponent := by
  have hdrop : ∀ n, (0x3C : UInt8) ∉ fraction (digits.drop n) :=
    fun n => notMem_fraction fun hmem => h (List.mem_of_mem_drop hmem)
  have htake : ∀ n, (0x3C : UInt8) ∉ digits.take n := fun n hmem => h (List.mem_of_mem_take hmem)
  unfold digitsText
  split
  · simp only [List.mem_append, not_or]
    exact ⟨⟨htake 1, hdrop 1⟩, notMem_exponentText exponent⟩
  · split
    · have hkept : (0x3C : UInt8) ∉ digits.rdropWhile (· == 0x30) :=
        fun hmem => h ((List.rdropWhile_prefix _ _).subset hmem)
      simp [lit, hkept]
    · simp only [List.mem_append, not_or]
      exact ⟨htake _, hdrop _⟩

theorem notMem_streamedDouble (x : StreamedDouble) : (0x3C : UInt8) ∉ streamedDouble x := by
  cases x with
  | zero negative => cases negative <;> decide
  | finite negative digits exponent =>
    have hdigits := notMem_digitsText (notMem_toDecimal digits) exponent
    cases negative
    · exact hdigits
    · exact List.not_mem_cons_of_ne_of_not_mem (by decide) hdigits
  | infinite negative => cases negative <;> decide
  | nan negative => cases negative <;> decide

/-! ## The pieces of the page -/

theorem plainTexts_append (ps qs : List (Piece UInt8)) :
    Markup.PlainTexts 0x3C (ps ++ qs) ↔ Markup.PlainTexts 0x3C ps ∧ Markup.PlainTexts 0x3C qs := by
  simp only [Markup.PlainTexts, List.mem_append, or_imp, forall_and]

theorem plainTexts_flatMap {β : Type*} (part : β → List (Piece UInt8)) (bs : List β) :
    Markup.PlainTexts 0x3C (bs.flatMap part) ↔ ∀ b ∈ bs, Markup.PlainTexts 0x3C (part b) := by
  constructor
  · exact fun h b hb s hs => h s (List.mem_flatMap.mpr ⟨b, hb, hs⟩)
  · intro h s hs
    obtain ⟨b, hb, hs⟩ := List.mem_flatMap.mp hs
    exact h b hb s hs

theorem plainTexts_statsPieces (stats : AdminStats) :
    Markup.PlainTexts 0x3C (statsPieces stats) := by
  simp [Markup.PlainTexts, statsPieces, notMem_intToDecimal, notMem_streamedDouble]

theorem plainTexts_devicePieces (device : AdminDevice) :
    Markup.PlainTexts 0x3C (devicePieces device)
      ↔ ∀ s ∈ [device.deviceId, device.deviceName, device.lastSeen], (0x3C : UInt8) ∉ s := by
  simp [Markup.PlainTexts, devicePieces, notMem_intToDecimal, notMem_streamedDouble]

theorem plainTexts_recordPieces (record : AdminRecord) :
    Markup.PlainTexts 0x3C (recordPieces record)
      ↔ ∀ s ∈ [record.deviceName, record.createdAt], (0x3C : UInt8) ∉ s := by
  simp [Markup.PlainTexts, recordPieces, notMem_intToDecimal, notMem_streamedDouble]

/-- The texts of the page are plain if those of the database are. -/
theorem plainTexts_pieces (stats : AdminStats) (devices : List AdminDevice)
    (history : List AdminRecord) :
    Markup.PlainTexts 0x3C (pieces stats devices history)
      ↔ ∀ s ∈ texts devices history, (0x3C : UInt8) ∉ s := by
  have hmarkup : ∀ s : Bytes, Markup.PlainTexts 0x3C [.markup s] := by
    intro s t ht
    simp at ht
  unfold pieces
  simp only [plainTexts_append, plainTexts_flatMap, plainTexts_statsPieces, hmarkup,
    plainTexts_devicePieces, plainTexts_recordPieces, true_and, and_true, texts,
    List.mem_append, List.mem_flatMap, or_imp, forall_and]
  refine and_congr ?_ ?_ <;>
    exact ⟨fun h s ⟨b, hb, hs⟩ => h b hb s hs, fun h b hb s hs => h s ⟨b, hb, hs⟩⟩

theorem closedMarkup_append (ps qs : List (Piece UInt8)) :
    Markup.ClosedMarkup 0x3C 0x3E (ps ++ qs)
      ↔ Markup.ClosedMarkup 0x3C 0x3E ps ∧ Markup.ClosedMarkup 0x3C 0x3E qs := by
  simp only [Markup.ClosedMarkup, List.mem_append, or_imp, forall_and]

theorem closedMarkup_flatMap {β : Type*} {part : β → List (Piece UInt8)}
    (h : ∀ b, Markup.ClosedMarkup 0x3C 0x3E (part b)) (bs : List β) :
    Markup.ClosedMarkup 0x3C 0x3E (bs.flatMap part) := by
  intro s hs
  obtain ⟨b, -, hs⟩ := List.mem_flatMap.mp hs
  exact h b s hs

/-- Whether the tags of a piece end where it does. -/
def isClosed : Piece UInt8 → Bool
  | .markup s => (Markup.after 0x3C 0x3E none s).isNone
  | .text _ => true

theorem closedMarkup_of_all {ps : List (Piece UInt8)} (h : ps.all isClosed = true) :
    Markup.ClosedMarkup 0x3C 0x3E ps := by
  intro s hs
  exact Option.isNone_iff_eq_none.mp (List.all_eq_true.mp h _ hs)

/-- What the tags of pieces do. -/
def effects (ps : List (Piece UInt8)) : List (Tag Bytes) :=
  (Markup.markupTags 0x3C 0x3E ps).map readTag

/-- The elements that are open where the statistics stand. -/
def inStatistics : List Bytes := [lit "p", lit "div", lit "body", lit "html"]

/-- The elements that are open where the rows of a table stand. -/
def inTable : List Bytes := [lit "table", lit "body", lit "html"]

/-- **The long texts of the source**: their tags are closed in them, and what they open and close
puts the statistics, and then the rows, where they belong. -/
theorem markup_spec :
    (∀ s ∈ [head, devicesHead, recordsHead, foot], Markup.after 0x3C 0x3E none s = none)
      ∧ Markup.nest [] (effects [.markup head]) = some inStatistics
      ∧ Markup.nest inStatistics (effects [.markup devicesHead]) = some inTable
      ∧ Markup.nest inTable (effects [.markup recordsHead]) = some inTable
      ∧ Markup.nest inTable (effects [.markup foot]) = some [] := by
  -- one evaluation of the texts for all of them
  decide +kernel

theorem closedMarkup_pieces (stats : AdminStats) (devices : List AdminDevice)
    (history : List AdminRecord) :
    Markup.ClosedMarkup 0x3C 0x3E (pieces stats devices history) := by
  have hclosed : ∀ s ∈ [head, devicesHead, recordsHead, foot],
      Markup.ClosedMarkup 0x3C 0x3E [.markup s] := by
    intro s hs t ht
    cases List.mem_singleton.mp ht
    exact markup_spec.1 s hs
  unfold pieces
  simp only [closedMarkup_append]
  refine ⟨⟨⟨⟨⟨⟨hclosed _ ?_, closedMarkup_of_all rfl⟩, hclosed _ ?_⟩, closedMarkup_flatMap ?_ _⟩,
    hclosed _ ?_⟩, closedMarkup_flatMap ?_ _⟩, hclosed _ ?_⟩
  · simp
  · simp
  · exact fun device => closedMarkup_of_all rfl
  · simp
  · exact fun record => closedMarkup_of_all rfl
  · simp

/-- The page ends outside of all tags. -/
theorem after_adminPage (stats : AdminStats) (devices : List AdminDevice)
    (history : List AdminRecord) :
    Markup.after 0x3C 0x3E none (adminPage stats devices history) = none := by
  have hfoot : foot = lit "\n    </table>\n</body>\n</html" ++ 0x3E :: lit "\n" := by decide
  have hrender : ∃ front, adminPage stats devices history = front ++ 0x3E :: lit "\n" := by
    refine ⟨Markup.render ([.markup head] ++ statsPieces stats ++ [.markup devicesHead]
      ++ devices.flatMap devicePieces ++ [.markup recordsHead] ++ history.flatMap recordPieces)
      ++ lit "\n    </table>\n</body>\n</html", ?_⟩
    rw [List.append_assoc, ← hfoot, adminPage, pieces]
    unfold Markup.render
    rw [List.flatMap_append]
    rfl
  obtain ⟨front, hpage⟩ := hrender
  rw [hpage, Markup.after_append]
  exact Markup.after_closing (by decide) (by decide) _

/-! ## The nesting of the page -/

theorem effects_append (ps qs : List (Piece UInt8)) :
    effects (ps ++ qs) = effects ps ++ effects qs := by
  rw [effects, Markup.markupTags, List.flatMap_append, List.map_append]
  rfl

theorem effects_flatMap {β : Type*} (part : β → List (Piece UInt8)) (bs : List β) :
    effects (bs.flatMap part) = bs.flatMap fun b => effects (part b) := by
  induction bs with
  | nil => rfl
  | cons b bs ih => rw [List.flatMap_cons, effects_append, ih, List.flatMap_cons]

theorem nest_stats (stats : AdminStats) :
    Markup.nest inStatistics (effects (statsPieces stats)) = some inStatistics := by
  rfl

/-- **A row of a device is not well nested.** -/
theorem nest_device (device : AdminDevice) :
    Markup.nest inTable (effects (devicePieces device)) = none := by
  rfl

theorem wellNested_record (record : AdminRecord) :
    Markup.WellNested (effects (recordPieces record)) := by
  rfl

/-- What is open behind the rows of the devices: all that was, if there are none. -/
theorem nest_devices (devices : List AdminDevice) :
    Markup.nest inTable (effects (devices.flatMap devicePieces))
      = if devices = [] then some inTable else none := by
  cases devices with
  | nil => rfl
  | cons device devices =>
    rw [List.flatMap_cons, effects_append, Markup.nest_append, nest_device,
      if_neg (List.cons_ne_nil _ _)]
    rfl

/-- **The tags of the source are nested only without devices.** -/
theorem wellNested_pieces_iff (stats : AdminStats) (devices : List AdminDevice)
    (history : List AdminRecord) :
    Markup.WellNested (effects (pieces stats devices history)) ↔ devices = [] := by
  obtain ⟨-, hhead, hdevices, hrecords, hfoot⟩ := markup_spec
  have hrows : Markup.nest inTable (effects (history.flatMap recordPieces)) = some inTable := by
    rw [effects_flatMap]
    exact Markup.nest_flatMap wellNested_record inTable history
  unfold Markup.WellNested pieces
  rw [effects_append, effects_append, effects_append, effects_append, effects_append,
    effects_append, Markup.nest_append, Markup.nest_append, Markup.nest_append,
    Markup.nest_append, Markup.nest_append, Markup.nest_append, hhead, Option.bind_some,
    nest_stats, Option.bind_some, hdevices, Option.bind_some, nest_devices]
  by_cases hnil : devices = []
  · rw [if_pos hnil, Option.bind_some, hrecords, Option.bind_some, hrows, Option.bind_some, hfoot]
    exact iff_of_true rfl hnil
  · rw [if_neg hnil]
    exact iff_of_false (fun h => by cases h) hnil

/-- **What the page shows of the database.** For all statistics, devices and records: the tags of
the page are those of the source exactly if no text of the database has a `<` in it, and then they
are well nested exactly if no device is known. -/
theorem adminPage_tags_iff (stats : AdminStats) (devices : List AdminDevice)
    (history : List AdminRecord) :
    (pageTags (adminPage stats devices history) = sourceTags stats devices history
        ↔ ∀ s ∈ texts devices history, 0x3C ∉ s)
      ∧ ((∀ s ∈ texts devices history, 0x3C ∉ s) →
        (Markup.WellNested ((pageTags (adminPage stats devices history)).map readTag)
          ↔ devices = [])) := by
  have hplain := plainTexts_pieces stats devices history
  have hclosed := closedMarkup_pieces stats devices history
  rw [← hplain]
  refine ⟨Markup.tags_render_iff (by decide) hclosed (after_adminPage stats devices history),
    fun htexts => ?_⟩
  have htags : pageTags (adminPage stats devices history) = sourceTags stats devices history :=
    Markup.tags_render hclosed htexts
  rw [htags]
  exact wellNested_pieces_iff stats devices history

end AdminPage
