import HttpServer.IntText
import HttpServer.SaveRecord
import HttpServer.SpeedTestPings
import HttpServer.Threads
import Mathlib.Algebra.BigOperators.Group.List.Basic
import Mathlib.Data.List.Dedup

/-!
# Saving records from several threads

The handler of `POST /api/speedtest` runs on the reader thread of its connection, so that
`Database::saveSpeedRecord` is called by several threads at a time. The lock that its two
statements were to be run under is commented out; what is left is that SQLite runs one statement
after the other. So each thread takes the call in three steps, and the statements of different
calls come in any order, each of them failing or not.

The two tables are those of two sequences of calls. `speed_records` has the records in the order
of the first statements, and `devices` is what the calls leave that came through, one after the
other in the order of their second statements. They agree exactly while no call stands between
its statements and none has failed there (`two_tables`), and this is also when the statistics of
`getStats`, which are computed from the first table, agree with the rows of the second
(`stats_agree_iff`).
-/

/-- Where a thread is in `saveSpeedRecord`. -/
inductive SavePoint
  | idle
  /-- Before the first statement. -/
  | called (record : SpeedRecord)
  /-- Before the second statement. -/
  | between (record : SpeedRecord)

/-- The record of a call that stands between its statements. -/
def SavePoint.record? : SavePoint → Option SpeedRecord
  | between record => some record
  | _ => none

/-- **The database and the threads that save records in it.** The last two fields keep what the
calls have come to that are over: those that returned true, with the times of their second
statements and in their order, and those that returned false behind their first statement. -/
structure SharedDatabase where
  db : Database := {}
  threads : List SavePoint
  saved : List (SpeedRecord × ℕ) := []
  stranded : List SpeedRecord := []

/-- The steps of a thread: it enters the call, or runs one of the two statements, which is
prepared and stepped with these outcomes. -/
inductive SaveStep
  | call (i : ℕ) (record : SpeedRecord)
  | insert (i : ℕ) (prepared stepped : Bool)
  | upsert (i : ℕ) (prepared stepped : Bool) (now : ℕ)

def SaveStep.thread : SaveStep → ℕ
  | call i _ | insert i _ _ | upsert i _ _ _ => i

namespace SharedDatabase

variable (s : SharedDatabase)

/-! ## The source -/

/-- The thread moves on. -/
def move (i : ℕ) (point : SavePoint) : SharedDatabase :=
  { s with threads := s.threads.set i point }

/-- What a thread does where it is; the result is what the call returns, if it does. -/
def perform : SaveStep → SavePoint → Option (SharedDatabase × Option Bool)
  | .call i record, .idle => some (s.move i (.called record), none)
  | .insert i prepared stepped, .called record =>
    if !prepared then some (s.move i .idle, some false)
    else if !stepped then some (s.move i .idle, some false)
    else some ({ s.move i (.between record) with db := s.db.insertRecord record }, none)
  | .upsert i prepared stepped now, .between record =>
    let failed := { s.move i .idle with stranded := s.stranded ++ [record] }
    if !prepared then some (failed, some false)
    else if !stepped then some (failed, some false)
    else
      some ({ s.move i .idle with
        db := s.db.upsertDevice record now, saved := s.saved ++ [(record, now)] }, some true)
  | _, _ => none

end SharedDatabase

/-- The threads as a machine. -/
def savingThreads : Machine SharedDatabase SaveStep (Option Bool) :=
  ⟨fun s a => (s.threads[a.thread]?).bind (s.perform a)⟩

/-! ## The statistics -/

/-- `StatsInfo`. -/
structure StatsInfo where
  totalTests : ℤ := 0
  avgSpeed : ℚ := 0
  maxSpeed : ℚ := 0
  activeDevices : ℤ := 0
  totalBytesTransferred : ℤ := 0
  avgLatency : ℚ := 0
  avgPacketLoss : ℚ := 0
  deriving DecidableEq

/-- `safe_stoi`. -/
def safeStoi (str : Bytes) : ℤ :=
  match stoi str with
  | .ok n => n
  | .error _ => 0

/-- `SUM` of integers, an error if it leaves their 64 bits on the way. -/
def sqlSum (values : List ℤ) : Option ℤ :=
  values.foldlM (fun sum value =>
    if -9223372036854775808 ≤ sum + value ∧ sum + value ≤ 9223372036854775807 then
      some (sum + value)
    else none) 0

/-- `getStats`: one row of aggregates, whose counts are read back from their text; if the query
fails, the callback is not called. -/
def Database.getStats (db : Database) : StatsInfo :=
  match sqlSum (db.speedRecords.map SpeedRecord.totalBytes) with
  | none => {}
  | some bytes =>
    { totalTests := safeStoi (toDecimal db.speedRecords.length)
      avgSpeed := mean (db.speedRecords.map SpeedRecord.speedMbps)
      maxSpeed := (db.speedRecords.map SpeedRecord.speedMbps).max?.getD 0
      activeDevices := safeStoi (toDecimal
        (db.speedRecords.map SpeedRecord.deviceId).dedup.length)
      totalBytesTransferred := bytes
      avgLatency := mean (db.speedRecords.map fun record => (record.latencyMs : ℚ))
      avgPacketLoss := mean (db.speedRecords.map SpeedRecord.packetLoss) }

namespace SharedDatabase

/-- Empty tables and this many threads. -/
def start (threads : ℕ) : SharedDatabase := { threads := List.replicate threads .idle }

variable (s : SharedDatabase)

/-- The records of the calls that stand between their statements. -/
def between : List SpeedRecord := s.threads.filterMap SavePoint.record?

/-- The row of `speed_records`. -/
def storedRow (record : SpeedRecord) : SpeedRecord :=
  { record with deviceId := boundText record.deviceId, deviceName := boundText record.deviceName }

/-! ## What a step does -/

/-- **What a step does**: nothing to the tables, or one of the statements. -/
inductive SaveMove (s : SharedDatabase) : SharedDatabase → Option Bool → Prop
  | aside (t : SharedDatabase) (reply : Option Bool) (hdb : t.db = s.db)
    (hbetween : t.between.Perm s.between) (hsaved : t.saved = s.saved)
    (hstranded : t.stranded = s.stranded) (hreply : reply ≠ some true) : SaveMove s t reply
  | inserted (t : SharedDatabase) (record : SpeedRecord) (hdb : t.db = s.db.insertRecord record)
    (hbetween : t.between.Perm (record :: s.between)) (hsaved : t.saved = s.saved)
    (hstranded : t.stranded = s.stranded) : SaveMove s t none
  | failed (t : SharedDatabase) (record : SpeedRecord) (hdb : t.db = s.db)
    (hbetween : s.between.Perm (record :: t.between)) (hsaved : t.saved = s.saved)
    (hstranded : t.stranded = s.stranded ++ [record]) : SaveMove s t (some false)
  | upserted (t : SharedDatabase) (record : SpeedRecord) (now : ℕ)
    (hdb : t.db = s.db.upsertDevice record now)
    (hbetween : s.between.Perm (record :: t.between))
    (hsaved : t.saved = s.saved ++ [(record, now)])
    (hstranded : t.stranded = s.stranded) : SaveMove s t (some true)

variable {s}

/-- The calls between their statements, when a thread moves. -/
theorem exists_between {i : ℕ} {point : SavePoint} (h : s.threads[i]? = some point) :
    ∃ rest, s.between.Perm (point.record?.toList ++ rest)
      ∧ ∀ point', (s.move i point').between.Perm (point'.record?.toList ++ rest) := by
  obtain ⟨others, hs, hset⟩ := Threads.exists_others h
  refine ⟨others.filterMap SavePoint.record?, (hs.filterMap _).trans ?_, fun point' =>
    ((hset point').filterMap _).trans ?_⟩
  · rw [List.filterMap_cons]
    cases point.record? <;> rfl
  · rw [List.filterMap_cons]
    cases point'.record? <;> rfl

/-- **Every step is one of these moves.** -/
theorem perform_move {a : SaveStep} {r : SharedDatabase × Option Bool}
    (hr : savingThreads.step s a = some r) : SaveMove s r.1 r.2 := by
  obtain ⟨point, hpoint, hr⟩ := Option.bind_eq_some_iff.mp hr
  obtain ⟨rest, hbefore, hafter⟩ := exists_between hpoint
  cases a with
  | call i record =>
    cases point with
    | idle =>
      cases hr
      exact .aside _ _ rfl ((hafter _).trans hbefore.symm) rfl rfl (by simp)
    | called record' => cases hr
    | between record' => cases hr
  | insert i prepared stepped =>
    cases point with
    | idle => cases hr
    | called record =>
      have hidle : (s.move i .idle).between.Perm s.between := (hafter .idle).trans hbefore.symm
      cases prepared with
      | false =>
        cases hr
        exact .aside _ _ rfl hidle rfl rfl (by simp)
      | true =>
        cases stepped with
        | false =>
          cases hr
          exact .aside _ _ rfl hidle rfl rfl (by simp)
        | true =>
          cases hr
          exact .inserted _ record rfl
            ((hafter (.between record)).trans (hbefore.symm.cons record)) rfl rfl
    | between record' => cases hr
  | upsert i prepared stepped now =>
    cases point with
    | idle => cases hr
    | called record' => cases hr
    | between record =>
      have hidle : s.between.Perm (record :: (s.move i .idle).between) :=
        hbefore.trans ((hafter .idle).symm.cons record)
      cases prepared with
      | false =>
        cases hr
        exact .failed _ record rfl hidle rfl rfl
      | true =>
        cases stepped with
        | false =>
          cases hr
          exact .failed _ record rfl hidle rfl rfl
        | true =>
          cases hr
          exact .upserted _ record now rfl hidle rfl rfl

/-! ## What the tables hold -/

variable (s) in
/-- The records of the calls that have run their first statement only: the second one is still
to come, or has failed. -/
def halfSaved : List SpeedRecord := s.between ++ s.stranded

variable (s) in
/-- **The tables are those of the calls.** The rows of the devices are what the calls leave that
came through, one after the other; the other table also has the records that are half saved. -/
structure Books (replies : List (Option Bool)) : Prop where
  devices_eq : s.db.devices = (Database.saveAll s.saved).devices
  records_perm :
    s.db.speedRecords.Perm ((s.saved.map Prod.fst ++ s.halfSaved).map storedRow)
  returned : replies.count (some true) = s.saved.length

theorem Books.start (threads : ℕ) : (start threads).Books [] where
  devices_eq := rfl
  records_perm := by
    have hidle : (SharedDatabase.start threads).between = [] :=
      List.filterMap_eq_nil_iff.mpr fun point hmem => by
        rw [List.eq_of_mem_replicate hmem]
        rfl
    show List.Perm [] (([] ++ ((SharedDatabase.start threads).between ++ [])).map storedRow)
    rw [hidle]
    exact .refl _
  returned := rfl

/-- One more call that came through. -/
theorem devices_saveAll_concat (calls : List (SpeedRecord × ℕ)) (record : SpeedRecord) (now : ℕ) :
    (Database.saveAll (calls ++ [(record, now)])).devices
      = Database.upsert (Database.saveAll calls).devices (record.deviceRow now) now := by
  rw [Database.saveAll, List.foldl_append]
  rfl

/-- **Every move keeps the books.** -/
theorem Books.step {replies : List (Option Bool)} {t : SharedDatabase} {reply : Option Bool}
    (h : s.Books replies) (hmove : SaveMove s t reply) : t.Books (replies ++ [reply]) := by
  -- what the first table has to be, with the records that are half saved in another order
  have hrecords : ∀ {half}, (s.halfSaved).Perm half →
      s.db.speedRecords.Perm ((s.saved.map Prod.fst ++ half).map storedRow) :=
    fun hperm => h.records_perm.trans ((hperm.append_left _).map _)
  cases hmove with
  | aside _ hdb hbetween hsaved hstranded hreply =>
    refine ⟨?_, ?_, ?_⟩
    · rw [hdb, hsaved]
      exact h.devices_eq
    · rw [hdb, hsaved, halfSaved, hstranded]
      exact hrecords (hbetween.symm.append_right _)
    · rw [List.count_append, h.returned, hsaved, List.count_eq_zero.mpr]
      · rfl
      · exact fun hmem => hreply (List.mem_singleton.mp hmem).symm
  | inserted record hdb hbetween hsaved hstranded =>
    refine ⟨?_, ?_, ?_⟩
    · rw [hdb, hsaved]
      exact h.devices_eq
    · rw [hdb, hsaved, halfSaved, hstranded]
      show List.Perm (s.db.speedRecords ++ [storedRow record]) _
      refine List.perm_append_singleton _ _ |>.trans ((h.records_perm.cons _).trans ?_)
      rw [← List.map_cons]
      refine List.Perm.map _ (List.perm_middle.symm.trans (List.Perm.append_left _ ?_))
      exact (hbetween.append_right _).symm
    · rw [List.count_append, h.returned, hsaved]
      rfl
  | failed record hdb hbetween hsaved hstranded =>
    refine ⟨?_, ?_, ?_⟩
    · rw [hdb, hsaved]
      exact h.devices_eq
    · rw [hdb, hsaved, halfSaved, hstranded]
      refine hrecords ((hbetween.append_right _).trans ?_)
      rw [← List.append_assoc]
      exact (List.perm_append_singleton _ _).symm
    · rw [List.count_append, h.returned, hsaved]
      rfl
  | upserted record now hdb hbetween hsaved hstranded =>
    refine ⟨?_, ?_, ?_⟩
    · rw [hdb, hsaved, devices_saveAll_concat, ← h.devices_eq]
      rfl
    · have hmap : (s.saved ++ [(record, now)]).map Prod.fst = s.saved.map Prod.fst ++ [record] :=
        List.map_append
      rw [hdb, hsaved, halfSaved, hstranded, hmap, List.append_assoc]
      exact hrecords (hbetween.append_right _)
    · rw [List.count_append, h.returned, hsaved, List.length_append]
      rfl

/-- **Every run keeps the books.** -/
theorem books_of_run {threads : ℕ} {steps : List SaveStep} {replies : List (Option Bool)}
    (hr : savingThreads.run (start threads) steps = some (s, replies)) : s.Books replies :=
  Machine.run_invariant (I := Books) (Books.start threads)
    (fun _ _ _ _ h hstep => h.step (perform_move hstep)) hr

/-! ## The two tables -/

/-- The records of a device among those that are half saved. -/
def halfOf (s : SharedDatabase) (device : Bytes) : List SpeedRecord :=
  s.halfSaved.filter fun record => boundText record.deviceId = device

theorem Books.length_storedRecords {replies : List (Option Bool)} (h : s.Books replies)
    (device : Bytes) :
    (s.db.storedRecords device).length
      = (Database.recordsOf s.saved device).length + (s.halfOf device).length := by
  have hperm := (h.records_perm.filter fun record => record.deviceId = device).length_eq
  rw [List.filter_map, List.length_map, List.filter_append, List.length_append] at hperm
  exact hperm

/-- The row of a device counts its records that are not half saved. -/
theorem Books.totalTests {replies : List (Option Bool)} (h : s.Books replies) {device : Bytes}
    {row : DeviceRow} (hrow : Database.lookup s.db.devices device = some row) :
    row.totalTests = (Database.recordsOf s.saved device).length := by
  obtain ⟨hnone, hsome⟩ := Database.lookup_saveAll s.saved device
  rw [h.devices_eq] at hrow
  by_cases hnil : Database.recordsOf s.saved device = []
  · rw [hnone hnil] at hrow
    cases hrow
  · obtain ⟨row', hrow', hof⟩ := hsome hnil
    rw [hrow', Option.some.injEq] at hrow
    rw [← hrow]
    exact hof.totalTests_eq

/-- A device has a row exactly if it has a record that is not half saved. -/
theorem Books.isSome_lookup_iff {replies : List (Option Bool)} (h : s.Books replies)
    (device : Bytes) :
    (Database.lookup s.db.devices device).isSome = true
      ↔ Database.recordsOf s.saved device ≠ [] := by
  obtain ⟨hnone, hsome⟩ := Database.lookup_saveAll s.saved device
  rw [h.devices_eq]
  by_cases hnil : Database.recordsOf s.saved device = []
  · rw [hnone hnil]
    exact iff_of_false Bool.false_ne_true (not_not.mpr hnil)
  · obtain ⟨row, hrow, -⟩ := hsome hnil
    rw [hrow]
    exact iff_of_true rfl hnil

/-- **The tables agree exactly if no record is half saved.** -/
theorem Books.consistent_iff {replies : List (Option Bool)} (h : s.Books replies) :
    s.db.Consistent ↔ s.halfSaved = [] := by
  constructor
  · intro hcons
    by_contra hne
    obtain ⟨record, hmem⟩ := List.exists_mem_of_ne_nil _ hne
    have hhalf : 0 < (s.halfOf (boundText record.deviceId)).length :=
      List.length_pos_of_mem (List.mem_filter.mpr ⟨hmem, decide_eq_true rfl⟩)
    have hlength := h.length_storedRecords (boundText record.deviceId)
    obtain ⟨hrow, htests⟩ := hcons (boundText record.deviceId)
    have hstored : s.db.storedRecords (boundText record.deviceId) ≠ [] := by
      rw [← List.length_pos_iff, hlength]
      omega
    obtain ⟨row, hsome⟩ := Option.isSome_iff_exists.mp (hrow.mpr hstored)
    have hcount := htests row hsome
    rw [h.totalTests hsome, hlength] at hcount
    omega
  · intro hnil device
    have hlength := h.length_storedRecords device
    rw [halfOf, hnil] at hlength
    change _ = _ + 0 at hlength
    rw [h.isSome_lookup_iff device]
    refine ⟨?_, fun row hsome => ?_⟩
    · rw [← List.length_pos_iff, ← List.length_pos_iff, hlength, Nat.add_zero]
    · rw [h.totalTests hsome, hlength, Nat.add_zero]

/-! ## The devices -/

/-- The statement on `devices` counts one more test. -/
theorem sum_upsert (rows : List DeviceRow) (record : SpeedRecord) (now : ℕ) :
    ((Database.upsert rows (record.deviceRow now) now).map DeviceRow.totalTests).sum
      = (rows.map DeviceRow.totalTests).sum + 1 := by
  induction rows with
  | nil => rfl
  | cons row rows ih =>
    unfold Database.upsert
    split
    · show row.totalTests + 1 + _ = row.totalTests + _ + 1
      exact add_right_comm _ _ _
    · rw [List.map_cons, List.sum_cons, ih, List.map_cons, List.sum_cons, add_assoc]

/-- The devices that have a row, behind the statement. -/
theorem map_deviceId_upsert (rows : List DeviceRow) (excluded : DeviceRow) (now : ℕ) :
    (Database.upsert rows excluded now).map DeviceRow.deviceId
      = if excluded.deviceId ∈ rows.map DeviceRow.deviceId then rows.map DeviceRow.deviceId
        else rows.map DeviceRow.deviceId ++ [excluded.deviceId] := by
  induction rows with
  | nil => rfl
  | cons row rows ih =>
    unfold Database.upsert
    by_cases hrow : row.deviceId = excluded.deviceId
    · have hmem : excluded.deviceId ∈ (row :: rows).map DeviceRow.deviceId :=
        hrow ▸ List.mem_cons_self
      rw [if_pos hrow, if_pos hmem]
      rfl
    · have hmem : excluded.deviceId ∈ (row :: rows).map DeviceRow.deviceId
          ↔ excluded.deviceId ∈ rows.map DeviceRow.deviceId := by
        rw [List.map_cons, List.mem_cons, or_iff_right (Ne.symm hrow)]
      rw [if_neg hrow, List.map_cons, ih]
      simp only [hmem]
      split <;> rfl

theorem sum_totalTests_saveAll (calls : List (SpeedRecord × ℕ)) :
    ((Database.saveAll calls).devices.map DeviceRow.totalTests).sum = calls.length := by
  induction calls using List.reverseRecOn with
  | nil => rfl
  | append_singleton calls last ih =>
    rw [devices_saveAll_concat, sum_upsert, ih, List.length_append]
    rfl

/-- Every device has one row. -/
theorem nodup_devices_saveAll (calls : List (SpeedRecord × ℕ)) :
    ((Database.saveAll calls).devices.map DeviceRow.deviceId).Nodup := by
  induction calls using List.reverseRecOn with
  | nil => exact List.nodup_nil
  | append_singleton calls last ih =>
    rw [devices_saveAll_concat, map_deviceId_upsert]
    split
    · exact ih
    · rename_i hnew
      exact List.nodup_append.mpr ⟨ih, List.nodup_singleton _, fun a ha b hb hab =>
        hnew (List.mem_singleton.mp hb ▸ hab ▸ ha)⟩

theorem mem_deviceIds_iff (rows : List DeviceRow) (device : Bytes) :
    device ∈ rows.map DeviceRow.deviceId ↔ (Database.lookup rows device).isSome = true := by
  rw [Database.lookup, List.find?_isSome, List.mem_map]
  simp only [decide_eq_true_eq]

/-! ## The statistics and the devices -/

/-- A count that an `int` has room for is read back. -/
theorem safeStoi_toDecimal {n : ℕ} (h : n < 2147483648) : safeStoi (toDecimal n) = n := by
  have hread : stoi (toDecimal n) = .ok (n : ℤ) := stoi_intToDecimal (n := n) ⟨by omega, by omega⟩
  rw [safeStoi, hread]

/-- The first table has the records of the calls, as many as there are. -/
theorem Books.length_speedRecords {replies : List (Option Bool)} (h : s.Books replies) :
    (s.db.speedRecords.length : ℤ)
      = (s.db.devices.map DeviceRow.totalTests).sum + s.halfSaved.length := by
  rw [h.records_perm.length_eq, h.devices_eq, sum_totalTests_saveAll, List.length_map,
    List.length_append, List.length_map, Nat.cast_add]

/-- The devices that a record in the first table has. -/
theorem Books.mem_recordDevices_iff {replies : List (Option Bool)} (h : s.Books replies)
    (device : Bytes) :
    device ∈ s.db.speedRecords.map SpeedRecord.deviceId
      ↔ device ∈ s.db.devices.map DeviceRow.deviceId
        ∨ ∃ record ∈ s.halfSaved, boundText record.deviceId = device := by
  rw [mem_deviceIds_iff, h.isSome_lookup_iff, (h.records_perm.map _).mem_iff, List.map_map,
    List.map_append, List.mem_append, List.mem_map, List.mem_map]
  refine or_congr_left ?_
  rw [Database.recordsOf, ne_eq, List.filter_eq_nil_iff]
  simp only [decide_eq_true_eq, not_forall, not_not, exists_prop]
  exact Iff.rfl

/-- The devices of the first table are those of the second one, and more if there is a record
that is half saved of a device that has none else. -/
theorem Books.length_recordDevices {replies : List (Option Bool)} (h : s.Books replies) :
    (s.db.speedRecords.map SpeedRecord.deviceId).dedup.length = s.db.devices.length
      ↔ ∀ record ∈ s.halfSaved, (Database.lookup s.db.devices (boundText record.deviceId)).isSome
        = true := by
  have hnodup : (s.db.devices.map DeviceRow.deviceId).Nodup := by
    rw [h.devices_eq]
    exact nodup_devices_saveAll s.saved
  have hsub : (s.db.devices.map DeviceRow.deviceId).Subperm
      (s.db.speedRecords.map SpeedRecord.deviceId).dedup :=
    hnodup.subperm fun device hmem =>
      List.mem_dedup.mpr ((h.mem_recordDevices_iff device).mpr (Or.inl hmem))
  have hlength : (s.db.devices.map DeviceRow.deviceId).length = s.db.devices.length :=
    List.length_map _
  constructor
  · intro heq record hmem
    have hperm := hsub.perm_of_length_le (by rw [heq, hlength])
    rw [← mem_deviceIds_iff, hperm.mem_iff, List.mem_dedup, h.mem_recordDevices_iff]
    exact Or.inr ⟨record, hmem, rfl⟩
  · intro hall
    refine Eq.trans (List.Perm.length_eq ?_) hlength
    refine (List.perm_ext_iff_of_nodup (List.nodup_dedup _) hnodup).mpr fun device => ?_
    rw [List.mem_dedup, h.mem_recordDevices_iff, or_iff_left_of_imp]
    rintro ⟨record, hmem, rfl⟩
    exact (mem_deviceIds_iff _ _).mpr (hall record hmem)

/-! ## Runs -/

/-- **When the two tables agree.** In every state that any number of threads comes to from empty
tables, whatever the order of their statements and whichever of them fail: `devices` is what the
calls that came through leave one after the other, in the order of their second statements, and
counts as many tests as calls have returned true; `speed_records` has their records and those
that are half saved; and the tables agree exactly if there is no such record. -/
theorem two_tables {threads : ℕ} {steps : List SaveStep} {t : SharedDatabase}
    {replies : List (Option Bool)}
    (hr : savingThreads.run (start threads) steps = some (t, replies)) :
    t.db.devices = (Database.saveAll t.saved).devices
      ∧ (t.db.devices.map DeviceRow.totalTests).sum = replies.count (some true)
      ∧ t.db.speedRecords.Perm ((t.saved.map Prod.fst ++ t.halfSaved).map storedRow)
      ∧ (t.db.Consistent ↔ t.halfSaved = []) := by
  have hbooks := books_of_run hr
  refine ⟨hbooks.devices_eq, ?_, hbooks.records_perm, hbooks.consistent_iff⟩
  rw [hbooks.returned, hbooks.devices_eq, sum_totalTests_saveAll]

/-- **When the statistics agree with the rows of the devices.** In every such state, as long as
the counts and the sum of the bytes are in the range of their types: `getStats` counts the tests
of all devices and those that are half saved, and the devices that have a row, unless one has
only records that are half saved. -/
theorem stats_agree_iff {threads : ℕ} {steps : List SaveStep} {t : SharedDatabase}
    {replies : List (Option Bool)}
    (hr : savingThreads.run (start threads) steps = some (t, replies))
    (hcount : t.db.speedRecords.length < 2147483648)
    (hbytes : (sqlSum (t.db.speedRecords.map SpeedRecord.totalBytes)).isSome = true) :
    t.db.getStats.totalTests
        = (t.db.devices.map DeviceRow.totalTests).sum + t.halfSaved.length
      ∧ (t.db.getStats.activeDevices = t.db.devices.length
        ↔ ∀ record ∈ t.halfSaved,
          (Database.lookup t.db.devices (boundText record.deviceId)).isSome = true) := by
  have hbooks := books_of_run hr
  obtain ⟨bytes, hbytes⟩ := Option.isSome_iff_exists.mp hbytes
  have hdevices : (t.db.speedRecords.map SpeedRecord.deviceId).dedup.length < 2147483648 := by
    refine lt_of_le_of_lt (List.dedup_sublist _).length_le ?_
    rwa [List.length_map]
  unfold Database.getStats
  rw [hbytes]
  refine ⟨?_, ?_⟩
  · rw [← hbooks.length_speedRecords]
    exact safeStoi_toDecimal hcount
  · rw [← hbooks.length_recordDevices]
    show safeStoi _ = _ ↔ _
    rw [safeStoi_toDecimal hdevices, Nat.cast_inj]

/-- The records of one device that two threads save. -/
def firstRecord : SpeedRecord := { deviceId := lit "d", speedMbps := 100 }

def secondRecord : SpeedRecord := { deviceId := lit "d", speedMbps := 50 }

/-- The second call overtakes the first one, which stands between its statements. -/
def overtaking : List SaveStep :=
  [.call 0 firstRecord, .insert 0 true true, .call 1 secondRecord, .insert 1 true true,
    .upsert 1 true true 7]

def overtaken : SharedDatabase where
  db := ⟨[firstRecord, secondRecord], [secondRecord.deviceRow 7]⟩
  threads := [.between firstRecord, .idle]
  saved := [(secondRecord, 7)]

theorem run_overtaking : savingThreads.run (start 2) overtaking
    = some (overtaken, [none, none, none, none, some true]) := rfl

/-- The tables do not agree behind the call that has overtaken the other one. -/
theorem two_tables_overtaking : overtaken.db.devices = (Database.saveAll overtaken.saved).devices
    ∧ (overtaken.db.devices.map DeviceRow.totalTests).sum
      = [none, none, none, none, some true].count (some true)
    ∧ overtaken.db.speedRecords.Perm
      ((overtaken.saved.map Prod.fst ++ overtaken.halfSaved).map storedRow)
    ∧ (overtaken.db.Consistent ↔ overtaken.halfSaved = []) :=
  two_tables run_overtaking

/-- Both records are counted, and the device. -/
theorem stats_agree_overtaking :
    overtaken.db.getStats.totalTests
        = (overtaken.db.devices.map DeviceRow.totalTests).sum + overtaken.halfSaved.length
      ∧ (overtaken.db.getStats.activeDevices = overtaken.db.devices.length
        ↔ ∀ record ∈ overtaken.halfSaved,
          (Database.lookup overtaken.db.devices (boundText record.deviceId)).isSome = true) :=
  stats_agree_iff run_overtaking (by decide) (by decide)

end SharedDatabase
