import HttpServer.Database
import HttpServer.Machine

/-!
# Saving a record when SQLite may fail

`Database::saveSpeedRecord` of `infrastructure/database.cpp` with the outcomes of the four calls
that it looks at: each of its two statements is prepared and stepped. A statement that fails
changes nothing, and one that succeeds is committed at once, since no transaction is begun.

If the first statement succeeds and the second fails, the call reports a failure although the
record is in `speed_records`, and the row of its device falls behind for good. This is the only
way in which a call is not atomic: `saveSpeedRecord_atomic_iff`.
-/

/-- How the calls of SQLite end in which `saveSpeedRecord` may fail, true where they succeed. -/
structure SqliteOutcomes where
  prepareInsert : Bool
  stepInsert : Bool
  prepareUpsert : Bool
  stepUpsert : Bool
  deriving DecidableEq

/-- A call of `saveSpeedRecord`, with the time of its statements. -/
structure SaveCall where
  record : SpeedRecord
  now : ℕ
  outcomes : SqliteOutcomes

namespace Database

variable (db : Database)

/-! ## The source -/

/-- The statement on `speed_records`. -/
def insertRecord (record : SpeedRecord) : Database :=
  { db with speedRecords := db.speedRecords
      ++ [{ record with
        deviceId := boundText record.deviceId, deviceName := boundText record.deviceName }] }

/-- The statement on `devices`. -/
def upsertDevice (record : SpeedRecord) (now : ℕ) : Database :=
  { db with devices := upsert db.devices (record.deviceRow now) now }

/-- `saveSpeedRecord`: what it returns, and the tables. -/
def trySaveSpeedRecord (call : SaveCall) : Bool × Database :=
  if !call.outcomes.prepareInsert then (false, db)
  else if !call.outcomes.stepInsert then (false, db)
  else
    let db := db.insertRecord call.record
    if !call.outcomes.prepareUpsert then (false, db)
    else if !call.outcomes.stepUpsert then (false, db)
    else (true, db.upsertDevice call.record call.now)

end Database

/-- The database as a machine; the result of a call is what it returns. -/
def saveCalls : Machine Database SaveCall Bool where
  step db call :=
    let r := db.trySaveSpeedRecord call
    some (r.2, r.1)

/-! ## What the tables should hold -/

/-- **The second statement succeeds if the first one does.** -/
def SaveCall.Completes (call : SaveCall) : Prop :=
  call.outcomes.prepareInsert = true → call.outcomes.stepInsert = true →
    call.outcomes.prepareUpsert = true ∧ call.outcomes.stepUpsert = true

namespace Database

variable (db : Database)

/-- The records of a device in `speed_records`. -/
def storedRecords (device : Bytes) : List SpeedRecord :=
  db.speedRecords.filter fun record => record.deviceId = device

/-- **A call that returns false leaves both tables as they were.** -/
def Atomic (call : SaveCall) : Prop :=
  ∀ r, saveCalls.step db call = some r → r.2 = false → r.1 = db

/-- **The two tables agree**: a device has a row exactly if it has records, and the row has the
number of them. -/
def Consistent : Prop :=
  ∀ device, ((lookup db.devices device).isSome = true ↔ db.storedRecords device ≠ [])
    ∧ ∀ row, lookup db.devices device = some row →
      row.totalTests = (db.storedRecords device).length

theorem consistent_empty : Consistent {} :=
  fun _ => ⟨iff_of_false Bool.false_ne_true (not_not.mpr rfl), fun _ h => by cases h⟩

/-! ## One call -/

variable {db} {call : SaveCall}

/-- **What a call does**: nothing, the first statement only, or both. -/
theorem trySaveSpeedRecord_cases (db : Database) (call : SaveCall) :
    call.Completes ∧ db.trySaveSpeedRecord call = (false, db)
      ∨ ¬ call.Completes ∧ db.trySaveSpeedRecord call = (false, db.insertRecord call.record)
      ∨ call.Completes
        ∧ db.trySaveSpeedRecord call = (true, db.saveSpeedRecord call.record call.now) := by
  obtain ⟨record, now, ⟨prepareInsert, stepInsert, prepareUpsert, stepUpsert⟩⟩ := call
  cases prepareInsert with
  | false => exact Or.inl ⟨fun h => absurd h Bool.false_ne_true, rfl⟩
  | true =>
    cases stepInsert with
    | false => exact Or.inl ⟨fun _ h => absurd h Bool.false_ne_true, rfl⟩
    | true =>
      cases prepareUpsert with
      | false => exact Or.inr (Or.inl ⟨fun h => Bool.false_ne_true (h rfl rfl).1, rfl⟩)
      | true =>
        cases stepUpsert with
        | false => exact Or.inr (Or.inl ⟨fun h => Bool.false_ne_true (h rfl rfl).2, rfl⟩)
        | true => exact Or.inr (Or.inr ⟨fun _ _ => ⟨rfl, rfl⟩, rfl⟩)

/-- The records of a device with one more in the table. -/
theorem storedRecords_insertRecord (db : Database) (record : SpeedRecord) (device : Bytes) :
    ((db.insertRecord record).storedRecords device).length
      = (db.storedRecords device).length
        + if boundText record.deviceId = device then 1 else 0 := by
  unfold storedRecords insertRecord
  rw [List.filter_append, List.length_append]
  by_cases hd : boundText record.deviceId = device <;> simp [hd]

theorem insertRecord_ne (db : Database) (record : SpeedRecord) : db.insertRecord record ≠ db := by
  intro h
  have hlength := congrArg (fun db => db.speedRecords.length) h
  simp only [insertRecord, List.length_append, List.length_singleton] at hlength
  omega

/-- **A call is atomic exactly if it completes.** -/
theorem atomic_iff : db.Atomic call ↔ call.Completes := by
  rcases trySaveSpeedRecord_cases db call with ⟨hc, hr⟩ | ⟨hc, hr⟩ | ⟨hc, hr⟩
  · refine iff_of_true (fun r hstep _ => ?_) hc
    simp only [saveCalls, hr] at hstep
    cases hstep
    rfl
  · refine iff_of_false (fun hatomic => ?_) hc
    exact insertRecord_ne db call.record
      (hatomic (db.insertRecord call.record, false) (by simp only [saveCalls, hr]) rfl)
  · refine iff_of_true (fun r hstep hfalse => ?_) hc
    simp only [saveCalls, hr] at hstep
    cases hstep
    cases hfalse

/-- **Both statements keep the tables in agreement.** -/
theorem Consistent.saveSpeedRecord (h : db.Consistent) (record : SpeedRecord) (now : ℕ) :
    (db.saveSpeedRecord record now).Consistent := by
  intro device
  obtain ⟨hrow, htests⟩ := h device
  have hstored : ((db.saveSpeedRecord record now).storedRecords device).length
      = (db.storedRecords device).length + if boundText record.deviceId = device then 1 else 0 :=
    storedRecords_insertRecord db record device
  have hlookup : lookup (db.saveSpeedRecord record now).devices device = _ :=
    lookup_upsert db.devices (record.deviceRow now) now device
  have hid : (record.deviceRow now).deviceId = boundText record.deviceId := rfl
  rw [hlookup, hid, ← List.length_pos_iff, hstored]
  rw [← List.length_pos_iff] at hrow
  by_cases hd : device = boundText record.deviceId
  · rw [if_pos hd, if_pos hd.symm]
    refine ⟨iff_of_true rfl (Nat.succ_pos _), fun row hsome => ?_⟩
    cases hold : lookup db.devices device with
    | none =>
      -- the first record of the device
      have hzero : ¬ 0 < (db.storedRecords device).length := fun hpos => by
        rw [← hrow, hold] at hpos
        cases hpos
      rw [hold] at hsome
      cases hsome
      rw [Nat.eq_zero_of_not_pos hzero]
      rfl
    | some old =>
      rw [hold] at hsome
      cases hsome
      show old.totalTests + 1 = _
      rw [htests old hold, Nat.cast_add, Nat.cast_one]
  · rw [if_neg hd, if_neg (Ne.symm hd), Nat.add_zero]
    exact ⟨hrow, htests⟩

/-- **The first statement alone breaks it.** -/
theorem Consistent.not_insertRecord (h : db.Consistent) (record : SpeedRecord) :
    ¬ (db.insertRecord record).Consistent := by
  intro h'
  obtain ⟨-, htests⟩ := h (boundText record.deviceId)
  obtain ⟨hrow, htests'⟩ := h' (boundText record.deviceId)
  have hstored := storedRecords_insertRecord db record (boundText record.deviceId)
  rw [if_pos rfl] at hstored
  have hne : (db.insertRecord record).storedRecords (boundText record.deviceId) ≠ [] := by
    rw [← List.length_pos_iff, hstored]
    exact Nat.succ_pos _
  obtain ⟨row, hsome⟩ := Option.isSome_iff_exists.mp (hrow.mpr hne)
  have hnew := htests' row hsome
  rw [htests row hsome, hstored] at hnew
  omega

/-! ## Runs -/

/-- What is asked of each call alone is asked of all calls of a run. -/
theorem along_completes_iff (db : Database) (calls : List SaveCall) :
    saveCalls.Along (fun _ call => call.Completes) db calls ↔ ∀ call ∈ calls, call.Completes := by
  induction calls generalizing db with
  | nil => exact iff_of_true trivial fun call hmem => absurd hmem List.not_mem_nil
  | cons call calls ih =>
    rw [Machine.along_cons (r := ((db.trySaveSpeedRecord call).2, (db.trySaveSpeedRecord call).1))
      rfl, List.forall_mem_cons, ih]

/-- **When saving is atomic across the two tables.** In every sequence of calls on tables that
agree, with any calls of SQLite failing, every call that returns false leaves the tables as they
were and the tables agree after every call, exactly if in each call the second statement succeeds
when the first one has. -/
theorem saveSpeedRecord_atomic_iff (h : db.Consistent) (calls : List SaveCall) :
    (saveCalls.Along Atomic db calls ∧ saveCalls.Always Consistent db calls)
      ↔ ∀ call ∈ calls, call.Completes := by
  have hatomic : saveCalls.Along Atomic db calls
      ↔ saveCalls.Along (fun _ call => call.Completes) db calls :=
    Machine.along_iff_along (I := fun _ => True) (fun _ _ _ _ _ => trivial)
      (fun _ _ _ _ _ => atomic_iff) trivial
  have halways : saveCalls.Always Consistent db calls
      ↔ saveCalls.Along (fun _ call => call.Completes) db calls := by
    refine Machine.always_iff_along (I := Consistent) (fun _ => id) ?_ ?_ h
    · intro db call r hcons hc hstep
      simp only [saveCalls, Option.some.injEq] at hstep
      subst hstep
      rcases trySaveSpeedRecord_cases db call with ⟨-, hr⟩ | ⟨hno, -⟩ | ⟨-, hr⟩
      · rw [hr]
        exact hcons
      · exact absurd hc hno
      · rw [hr]
        exact hcons.saveSpeedRecord call.record call.now
    · intro db call r hcons hc hstep
      simp only [saveCalls, Option.some.injEq] at hstep
      subst hstep
      rcases trySaveSpeedRecord_cases db call with ⟨hyes, -⟩ | ⟨-, hr⟩ | ⟨hyes, -⟩
      · exact absurd hyes hc
      · rw [hr]
        exact hcons.not_insertRecord call.record
      · exact absurd hyes hc
  rw [hatomic, halways, and_self, along_completes_iff]

/-- A call whose second statement fails in `sqlite3_step`. -/
def upsertFails : SaveCall where
  record := { deviceId := lit "d", speedMbps := 100 }
  now := 0
  outcomes := ⟨true, true, true, false⟩

/-- The criterion on the empty tables: a first call in which nothing fails, and a second one. -/
theorem saveSpeedRecord_atomic_empty :
    let calls := [{ upsertFails with outcomes := ⟨true, true, true, true⟩ }, upsertFails]
    (saveCalls.Along Atomic {} calls ∧ saveCalls.Always Consistent {} calls)
      ↔ ∀ call ∈ calls, call.Completes :=
  saveSpeedRecord_atomic_iff consistent_empty _

/-- The record is in the table although the call has failed, and its device has no row. -/
theorem failed_save_stored :
    ¬ (saveCalls.Along Atomic {} [upsertFails] ∧ saveCalls.Always Consistent {} [upsertFails]) := by
  rintro ⟨hatomic, -⟩
  obtain ⟨hcall, -⟩ := hatomic ((insertRecord {} upsertFails.record), false) rfl
  exact insertRecord_ne {} upsertFails.record (hcall _ rfl rfl)

end Database
