import HttpServer.Cpp
import HttpServer.Mean
import Mathlib.Algebra.Field.Rat
import Mathlib.Data.List.Induction

/-!
# The statistics of the devices

`Database::saveSpeedRecord` of `infrastructure/database.cpp` on its two tables. A record is
inserted into `speed_records`, and the row of its device in `devices` is inserted or updated
with one statement. Its values are exact rationals.

The update is meant to keep a mean up to date, but its right-hand sides are computed from the
row before the update. There `total_tests` is the number of the earlier records, so the old
mean has one weight too few. From the second record on the mean is the one of all records but
the first: `statistics_exact_iff`.
-/

/-- `SpeedRecord`, as far as it is stored. -/
structure SpeedRecord where
  deviceId : Bytes
  deviceName : Bytes := []
  speedMbps : ℚ
  uploadSpeedMbps : ℚ := 0
  latencyMs : ℤ := 0
  jitterMs : ℚ := 0
  packetLoss : ℚ := 0
  totalBytes : ℤ := 0
  testDuration : ℚ := 0

/-- A row of `devices`. The times are those of the statements. -/
structure DeviceRow where
  deviceId : Bytes
  deviceName : Bytes
  firstSeen : ℕ
  lastSeen : ℕ
  totalTests : ℤ
  avgSpeed : ℚ
  avgLatency : ℤ
  avgPacketLoss : ℚ
  deriving DecidableEq

/-- The two tables. -/
structure Database where
  speedRecords : List SpeedRecord := []
  devices : List DeviceRow := []

/-! ## The source -/

/-- What `sqlite3_bind_text` binds for `c_str()` and the length -1. -/
def boundText (s : Bytes) : Bytes := s.takeWhile (· != 0)

/-- The row that is to be inserted, `excluded` in the update. -/
def SpeedRecord.deviceRow (record : SpeedRecord) (now : ℕ) : DeviceRow where
  deviceId := boundText record.deviceId
  deviceName := boundText record.deviceName
  firstSeen := now
  lastSeen := now
  totalTests := 1
  avgSpeed := record.speedMbps
  avgLatency := record.latencyMs
  avgPacketLoss := record.packetLoss

/-- `ON CONFLICT(device_id) DO UPDATE SET`: a plain column is that of the row before. -/
def DeviceRow.update (row excluded : DeviceRow) (now : ℕ) : DeviceRow :=
  { row with
    deviceName := excluded.deviceName
    lastSeen := now
    totalTests := row.totalTests + 1
    avgSpeed := (row.avgSpeed * (row.totalTests - 1) + excluded.avgSpeed) / row.totalTests
    avgLatency :=
      (row.avgLatency * (row.totalTests - 1) + excluded.avgLatency).tdiv row.totalTests
    avgPacketLoss :=
      (row.avgPacketLoss * (row.totalTests - 1) + excluded.avgPacketLoss) / row.totalTests }

namespace Database

/-- The statement on `devices`, whose `device_id` is unique. -/
def upsert (rows : List DeviceRow) (excluded : DeviceRow) (now : ℕ) : List DeviceRow :=
  match rows with
  | [] => [excluded]
  | row :: rows =>
    if row.deviceId = excluded.deviceId then row.update excluded now :: rows
    else row :: upsert rows excluded now

/-- `saveSpeedRecord`, where both statements succeed. -/
def saveSpeedRecord (db : Database) (record : SpeedRecord) (now : ℕ) : Database where
  speedRecords := db.speedRecords
    ++ [{ record with
      deviceId := boundText record.deviceId, deviceName := boundText record.deviceName }]
  devices := upsert db.devices (record.deviceRow now) now

/-- Records saved one after the other, each at a time, from empty tables. -/
def saveAll (records : List (SpeedRecord × ℕ)) : Database :=
  records.foldl (fun db r => db.saveSpeedRecord r.1 r.2) {}

/-! ## What the row of a device should hold -/

/-- The records of a device, in the order in which they were saved. -/
def recordsOf (records : List (SpeedRecord × ℕ)) (device : Bytes) : List SpeedRecord :=
  (records.map Prod.fst).filter fun r => boundText r.deviceId = device

/-- The row of a device. -/
def lookup (rows : List DeviceRow) (device : Bytes) : Option DeviceRow :=
  rows.find? fun row => row.deviceId = device

/-- **True averages**: the device has a row with the number of its records and the means of
their speeds and losses. -/
def TrueAverages (db : Database) (device : Bytes) (records : List SpeedRecord) : Prop :=
  ∃ row, lookup db.devices device = some row ∧ row.totalTests = records.length
    ∧ row.avgSpeed = mean (records.map SpeedRecord.speedMbps)
    ∧ row.avgPacketLoss = mean (records.map SpeedRecord.packetLoss)

/-- The first value, if there is another, is the mean of the others. -/
def FirstIsMean : List ℚ → Prop
  | x :: y :: ys => x = mean (y :: ys)
  | _ => True

/-! ## What it holds -/

/-- The average that is stored for a list of values: the only value, or the mean of all but
the first. -/
def storedAverage : List ℚ → ℚ
  | [x] => x
  | xs => mean xs.tail

/-- The update of an average. -/
theorem storedAverage_concat {xs : List ℚ} (hne : xs ≠ []) (x : ℚ) :
    storedAverage (xs ++ [x])
      = (storedAverage xs * (((xs.length : ℤ) : ℚ) - 1) + x) / ((xs.length : ℤ) : ℚ) := by
  match xs with
  | [y] => simp [storedAverage]
  | y :: z :: ys =>
    have hlen : (((y :: z :: ys).length : ℤ) : ℚ) = ((z :: ys).length : ℚ) + 1 := by
      rw [List.length_cons, Int.cast_natCast, Nat.cast_succ]
    show mean ((z :: ys) ++ [x]) = (mean (z :: ys) * _ + x) / _
    rw [mean_concat, hlen, add_sub_cancel_right]

/-- When the stored average is the mean. -/
theorem storedAverage_eq_mean_iff (xs : List ℚ) (hne : xs ≠ []) :
    storedAverage xs = mean xs ↔ FirstIsMean xs := by
  match xs with
  | [x] => exact iff_of_true (mean_singleton x).symm trivial
  | x :: y :: ys => exact mean_cons_eq_iff (List.cons_ne_nil y ys)

/-- The row that belongs to the records of a device. -/
structure RowOf (row : DeviceRow) (records : List SpeedRecord) : Prop where
  totalTests_eq : row.totalTests = records.length
  avgSpeed_eq : row.avgSpeed = storedAverage (records.map SpeedRecord.speedMbps)
  avgPacketLoss_eq : row.avgPacketLoss = storedAverage (records.map SpeedRecord.packetLoss)

theorem RowOf.first (record : SpeedRecord) (now : ℕ) :
    RowOf (record.deviceRow now) [record] :=
  ⟨rfl, rfl, rfl⟩

/-- **One more record of a device.** -/
theorem RowOf.update {row : DeviceRow} {records : List SpeedRecord} (h : RowOf row records)
    (hne : records ≠ []) (record : SpeedRecord) (now : ℕ) :
    RowOf (row.update (record.deviceRow now) now) (records ++ [record]) where
  totalTests_eq := by
    show row.totalTests + 1 = _
    rw [h.totalTests_eq, List.length_append, List.length_singleton, Nat.cast_add, Nat.cast_one]
  avgSpeed_eq := by
    show (row.avgSpeed * (row.totalTests - 1) + record.speedMbps) / row.totalTests = _
    rw [List.map_append, List.map_singleton, storedAverage_concat (by simpa using hne),
      h.totalTests_eq, h.avgSpeed_eq, List.length_map]
  avgPacketLoss_eq := by
    show (row.avgPacketLoss * (row.totalTests - 1) + record.packetLoss) / row.totalTests = _
    rw [List.map_append, List.map_singleton, storedAverage_concat (by simpa using hne),
      h.totalTests_eq, h.avgPacketLoss_eq, List.length_map]

/-- The statement on `devices` concerns the row of one device. -/
theorem lookup_upsert (rows : List DeviceRow) (excluded : DeviceRow) (now : ℕ)
    (device : Bytes) :
    lookup (upsert rows excluded now) device =
      if device = excluded.deviceId then
        some (((lookup rows device).map fun row => row.update excluded now).getD excluded)
      else lookup rows device := by
  induction rows with
  | nil =>
    by_cases hd : device = excluded.deviceId
    · simp [upsert, lookup, hd]
    · simp [upsert, lookup, hd, Ne.symm hd]
  | cons row rows ih =>
    unfold lookup at ih
    unfold upsert lookup
    by_cases hrow : row.deviceId = excluded.deviceId
    · have hupdate : (row.update excluded now).deviceId = row.deviceId := rfl
      rw [if_pos hrow, List.find?_cons, List.find?_cons, hupdate, hrow]
      by_cases hd : device = excluded.deviceId
      · simp [hd]
      · simp [hd, Ne.symm hd]
    · rw [if_neg hrow, List.find?_cons, List.find?_cons, ih]
      by_cases hd : row.deviceId = device
      · have hne : device ≠ excluded.deviceId := hd ▸ hrow
        simp [hd, hne]
      · simp [hd]

/-- **What the row of a device holds**, for every device. -/
theorem lookup_saveAll (records : List (SpeedRecord × ℕ)) (device : Bytes) :
    (recordsOf records device = [] → lookup (saveAll records).devices device = none)
      ∧ (recordsOf records device ≠ [] → ∃ row,
        lookup (saveAll records).devices device = some row
          ∧ RowOf row (recordsOf records device)) := by
  induction records using List.reverseRecOn with
  | nil => exact ⟨fun _ => rfl, fun hne => absurd rfl hne⟩
  | append_singleton records last ih =>
    obtain ⟨record, now⟩ := last
    have hsave : (saveAll (records ++ [(record, now)])).devices
        = upsert (saveAll records).devices (record.deviceRow now) now := by
      rw [saveAll, List.foldl_append]
      rfl
    have hid : (record.deviceRow now).deviceId = boundText record.deviceId := rfl
    rw [hsave, lookup_upsert, hid]
    by_cases hd : device = boundText record.deviceId
    · have hrecords : recordsOf (records ++ [(record, now)]) device
          = recordsOf records device ++ [record] := by
        simp [recordsOf, hd]
      rw [hrecords, if_pos hd]
      refine ⟨fun hnil => absurd hnil (by simp), fun _ => ?_⟩
      by_cases hnil : recordsOf records device = []
      · rw [ih.1 hnil, hnil]
        exact ⟨_, rfl, RowOf.first record now⟩
      · obtain ⟨row, hrow, hof⟩ := ih.2 hnil
        rw [hrow]
        exact ⟨_, rfl, hof.update hnil record now⟩
    · have hrecords : recordsOf (records ++ [(record, now)]) device
          = recordsOf records device := by
        simp [recordsOf, Ne.symm hd]
      rw [hrecords, if_neg hd]
      exact ih

/-- **When the statistics of a device are true averages.** For every sequence of records saved
from empty tables and every device with a record, its row holds the number of its records, and
the true averages exactly if the speed and the loss of its first record are the means of those
of its later ones, if there are any. -/
theorem statistics_exact_iff (records : List (SpeedRecord × ℕ)) (device : Bytes)
    (hne : recordsOf records device ≠ []) :
    (∃ row, lookup (saveAll records).devices device = some row
        ∧ row.totalTests = (recordsOf records device).length)
      ∧ (TrueAverages (saveAll records) device (recordsOf records device)
        ↔ FirstIsMean ((recordsOf records device).map SpeedRecord.speedMbps)
          ∧ FirstIsMean ((recordsOf records device).map SpeedRecord.packetLoss)) := by
  obtain ⟨row, hrow, hof⟩ := (lookup_saveAll records device).2 hne
  have hmap : ∀ f : SpeedRecord → ℚ, (recordsOf records device).map f ≠ [] := by
    intro f
    simpa using hne
  refine ⟨⟨row, hrow, hof.totalTests_eq⟩, ?_⟩
  rw [← storedAverage_eq_mean_iff _ (hmap _), ← storedAverage_eq_mean_iff _ (hmap _),
    ← hof.avgSpeed_eq, ← hof.avgPacketLoss_eq]
  constructor
  · rintro ⟨row', hrow', -, hspeed, hloss⟩
    rw [hrow, Option.some.injEq] at hrow'
    subst hrow'
    exact ⟨hspeed, hloss⟩
  · rintro ⟨hspeed, hloss⟩
    exact ⟨row, hrow, hof.totalTests_eq, hspeed, hloss⟩

/-- A device with the speeds 100 and 50. -/
def twoTests : List (SpeedRecord × ℕ) :=
  [({ deviceId := lit "d", speedMbps := 100 }, 0), ({ deviceId := lit "d", speedMbps := 50 }, 1)]

theorem recordsOf_twoTests : recordsOf twoTests (lit "d") = twoTests.map Prod.fst := rfl

/-- The criterion on the two tests. -/
theorem statistics_exact_two :
    (∃ row, lookup (saveAll twoTests).devices (lit "d") = some row
        ∧ row.totalTests = (recordsOf twoTests (lit "d")).length)
      ∧ (TrueAverages (saveAll twoTests) (lit "d") (recordsOf twoTests (lit "d"))
        ↔ FirstIsMean ((recordsOf twoTests (lit "d")).map SpeedRecord.speedMbps)
          ∧ FirstIsMean ((recordsOf twoTests (lit "d")).map SpeedRecord.packetLoss)) :=
  statistics_exact_iff twoTests (lit "d") (List.cons_ne_nil _ _)

/-- After the speeds 100 and 50 the average is 50. -/
theorem two_tests_not_averaged :
    ¬ TrueAverages (saveAll twoTests) (lit "d") (recordsOf twoTests (lit "d")) := by
  rintro ⟨row, hrow, -, hspeed, -⟩
  obtain ⟨row', hrow', hof⟩ := (lookup_saveAll twoTests (lit "d")).2 (List.cons_ne_nil _ _)
  rw [hrow, Option.some.injEq] at hrow'
  subst hrow'
  have hmean := hof.avgSpeed_eq.symm.trans hspeed
  rw [recordsOf_twoTests] at hmean
  have hfirst : (100 : ℚ) = mean [50] :=
    (storedAverage_eq_mean_iff [100, 50] (List.cons_ne_nil _ _)).mp hmean
  rw [mean_singleton] at hfirst
  norm_num at hfirst

end Database
