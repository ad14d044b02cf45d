import HttpServer.Machine
import Mathlib.Data.Finmap
import Mathlib.Data.Fintype.Basic
import Mathlib.Data.UInt
import Mathlib.Logic.Function.Basic

/-!
# The connection manager

`DefaultConnectionManager` of `core/Connection/connection_manager.cpp`, and what
`acceptLoop` of `application/http/http_server.cpp` does with it. The manager stores each
connection under its id, and the handler of the HTTP protocol keeps one context for each id.

An id has three sources: the loop takes the number of connections and adds one, a caller
may have chosen it, and where it is 0 the manager takes it from a counter. None of them
looks at the ids in use, and the map is overwritten without a look either. So ids are
unique as long as each of them happens to be free: `connection_ids_unique_iff`. They are as
long as the loop is the only source and no connection is ever removed
(`accepts_unique`); they are not once a connection has been removed behind which there is
another.
-/

/-- `DefaultConnectionManager`. A `std::shared_ptr` is the connection it points to. -/
structure DefaultConnectionManager (C : Type*) where
  connections : Finmap (fun _ : UInt64 => C) := ∅
  nextId : UInt64 := 1

namespace DefaultConnectionManager

variable {C : Type*} (m : DefaultConnectionManager C)

/-! ## The source -/

/-- `GetConnection`. -/
def getConnection (id : UInt64) : Option C := m.connections.lookup id

/-- `GetConnectionCount`. -/
def getConnectionCount : ℕ := m.connections.keys.card

/-- `CloseConnection`. That the connection is closed does not change its id. -/
def closeConnection (id : UInt64) : Bool × DefaultConnectionManager C :=
  match m.connections.lookup id with
  | none => (false, m)
  | some _ => (true, { m with connections := m.connections.erase id })

/-- `CloseAllConnections`. -/
def closeAllConnections : DefaultConnectionManager C := { m with connections := ∅ }

/-- `RegisterConnection`, with the ids of the connections. -/
def registerConnection [DecidableEq C] (ids : C → UInt64) (conn : C) :
    DefaultConnectionManager C × (C → UInt64) :=
  let id := ids conn
  let (id, nextId) := if id = 0 then (m.nextId, m.nextId + 1) else (id, m.nextId)
  let ids := Function.update ids conn id
  ({ connections := m.connections.insert id conn, nextId }, ids)

/-- `UnregisterConnection`. -/
def unregisterConnection (id : UInt64) : DefaultConnectionManager C :=
  { m with connections := m.connections.erase id }

/-- The id that `acceptLoop` sets, computed in `uint64_t`. -/
def acceptId : UInt64 := UInt64.ofNat m.getConnectionCount + 1

/-- The id under which a connection is stored that comes with the id `preset`. -/
def storedId (preset : UInt64) : UInt64 := if preset = 0 then m.nextId else preset

end DefaultConnectionManager

/-- **The manager and the connections**: the id of each, and for the account the ones that
are registered and the ones whose entry has been overwritten by that of another. -/
structure ConnectionTable (C : Type*) where
  manager : DefaultConnectionManager C := {}
  ids : C → UInt64 := fun _ => 0
  registered : Finset C := ∅
  replaced : Finset C := ∅

/-- The calls of the manager. -/
inductive ManagerCall (C : Type*)
  /-- A turn of `acceptLoop`, with the connection it has constructed. -/
  | accept (conn : C)
  /-- `RegisterConnection` of a connection that comes with the id `preset`. -/
  | registerConnection (conn : C) (preset : UInt64)
  | unregisterConnection (id : UInt64)
  | closeConnection (id : UInt64)
  | closeAllConnections

namespace ConnectionTable

variable {C : Type*} [DecidableEq C] (s : ConnectionTable C)

/-- A connection has its id set and is registered. -/
def register (conn : C) (preset : UInt64) : ConnectionTable C :=
  let (manager, ids) := s.manager.registerConnection (Function.update s.ids conn preset) conn
  { manager
    ids
    registered := insert conn s.registered
    replaced :=
      match (s.manager.getConnection (ids conn)).filter (· ≠ conn) with
      | none => s.replaced
      | some other => insert other s.replaced }

/-- The connection with an id is removed, which leaves the manager `manager`. -/
def remove (id : UInt64) (manager : DefaultConnectionManager C) : ConnectionTable C :=
  { s with
    manager
    registered :=
      match s.manager.getConnection id with
      | none => s.registered
      | some conn => s.registered.erase conn }

end ConnectionTable

/-- The table under the calls of the manager. A connection that is accepted is a new one,
and a connection that is registered already is registered again under its own id only. -/
def connectionTable (C : Type*) [DecidableEq C] :
    Machine (ConnectionTable C) (ManagerCall C) Unit where
  step s a :=
    match a with
    | .accept conn =>
      if conn ∈ s.registered then none else some (s.register conn s.manager.acceptId, ())
    | .registerConnection conn preset =>
      if conn ∈ s.registered ∧ s.manager.storedId preset ≠ s.ids conn then none
      else some (s.register conn preset, ())
    | .unregisterConnection id => some (s.remove id (s.manager.unregisterConnection id), ())
    | .closeConnection id => some (s.remove id (s.manager.closeConnection id).2, ())
    | .closeAllConnections =>
      some ({ s with manager := s.manager.closeAllConnections, registered := ∅ }, ())

/-! ## What is to hold -/

/-- **Ids are unique**: no registration has replaced the entry of another registered
connection, each registered connection is stored under its own id, and no two of them have
the same. -/
structure UniqueIds {C : Type*} (s : ConnectionTable C) : Prop where
  replaced_eq : s.replaced = ∅
  stored : ∀ conn ∈ s.registered, s.manager.getConnection (s.ids conn) = some conn
  distinct : ∀ conn ∈ s.registered, ∀ conn' ∈ s.registered, s.ids conn = s.ids conn' →
    conn = conn'

/-- What carries it: the entries are the registered connections under their ids. -/
structure Stored {C : Type*} (s : ConnectionTable C) : Prop where
  replaced_eq : s.replaced = ∅
  stored_iff : ∀ id conn, s.manager.getConnection id = some conn
    ↔ conn ∈ s.registered ∧ s.ids conn = id

/-- **The id is free**: a connection that is not registered yet gets an id under which none
is stored. -/
def IdFree {C : Type*} (s : ConnectionTable C) : ManagerCall C → Prop
  | .accept _ => s.manager.getConnection (s.manager.storedId s.manager.acceptId) = none
  | .registerConnection conn preset =>
    conn ∉ s.registered → s.manager.getConnection (s.manager.storedId preset) = none
  | _ => True

/-! ## One call -/

section

variable {C : Type*} {s : ConnectionTable C}

theorem Stored.uniqueIds (h : Stored s) : UniqueIds s where
  replaced_eq := h.replaced_eq
  stored conn hconn := (h.stored_iff _ _).mpr ⟨hconn, rfl⟩
  distinct conn hconn conn' hconn' heq := by
    have hfound := (h.stored_iff (s.ids conn) conn).mpr ⟨hconn, rfl⟩
    have hfound' := (h.stored_iff (s.ids conn') conn').mpr ⟨hconn', rfl⟩
    rw [heq, hfound'] at hfound
    exact (Option.some.inj hfound).symm

theorem stored_empty : Stored ({} : ConnectionTable C) where
  replaced_eq := rfl
  stored_iff _ _ := iff_of_false nofun nofun

variable [DecidableEq C]

/-- **What a registration does**: one entry, one id, and the account of the two. -/
theorem register_eq (s : ConnectionTable C) (conn : C) (preset : UInt64) :
    (s.register conn preset).manager.connections
        = s.manager.connections.insert (s.manager.storedId preset) conn
      ∧ (s.register conn preset).ids
        = Function.update s.ids conn (s.manager.storedId preset)
      ∧ (s.register conn preset).registered = insert conn s.registered
      ∧ (s.register conn preset).replaced
        = match (s.manager.getConnection (s.manager.storedId preset)).filter (· ≠ conn) with
          | none => s.replaced
          | some other => insert other s.replaced := by
  unfold ConnectionTable.register DefaultConnectionManager.registerConnection
    DefaultConnectionManager.storedId
  simp only [Function.update_self, Function.update_idem]
  split <;> simp only [true_and]

/-- A registration under a free id keeps the table. -/
theorem Stored.register (h : Stored s) {conn : C} (hnew : conn ∉ s.registered)
    {preset : UInt64} (hfree : s.manager.getConnection (s.manager.storedId preset) = none) :
    Stored (s.register conn preset) := by
  obtain ⟨hconnections, hids, hregistered, hreplaced⟩ := register_eq s conn preset
  refine ⟨?_, fun id conn' => ?_⟩
  · rw [hreplaced, hfree]
    exact h.replaced_eq
  · rw [DefaultConnectionManager.getConnection, hconnections, hids, hregistered, Finset.mem_insert]
    have hother : ∀ conn', conn' ∈ s.registered → conn' ≠ conn := by
      rintro conn' hmem rfl
      exact hnew hmem
    by_cases hid : id = s.manager.storedId preset
    · rw [hid, Finmap.lookup_insert, Option.some.injEq]
      constructor
      · rintro rfl
        exact ⟨Or.inl rfl, Function.update_self ..⟩
      · rintro ⟨rfl | hmem, hstored⟩
        · rfl
        · -- the id would not have been free
          rw [Function.update_of_ne (hother conn' hmem)] at hstored
          rw [(h.stored_iff _ _).mpr ⟨hmem, hstored⟩] at hfree
          cases hfree
    · rw [Finmap.lookup_insert_of_ne _ hid]
      refine (h.stored_iff id conn').trans ?_
      constructor
      · rintro ⟨hmem, hstored⟩
        exact ⟨Or.inr hmem, by rw [Function.update_of_ne (hother conn' hmem), hstored]⟩
      · rintro ⟨rfl | hmem, hstored⟩
        · rw [Function.update_self] at hstored
          exact absurd hstored.symm hid
        · rw [Function.update_of_ne (hother conn' hmem)] at hstored
          exact ⟨hmem, hstored⟩

/-- A connection is registered again under its id. -/
theorem Stored.register_again (h : Stored s) {conn : C} (hmem : conn ∈ s.registered)
    {preset : UInt64} (hid : s.manager.storedId preset = s.ids conn) :
    Stored (s.register conn preset) := by
  obtain ⟨hconnections, hids, hregistered, hreplaced⟩ := register_eq s conn preset
  have hfound := (h.stored_iff (s.ids conn) conn).mpr ⟨hmem, rfl⟩
  rw [hid, Function.update_eq_self] at hids
  refine ⟨?_, fun id conn' => ?_⟩
  · rw [hreplaced, hid, hfound, Option.filter_some_neg (by simp)]
    exact h.replaced_eq
  · rw [DefaultConnectionManager.getConnection, hconnections, hids, hregistered,
      Finset.insert_eq_of_mem hmem, hid, ← h.stored_iff, DefaultConnectionManager.getConnection]
    by_cases hid' : id = s.ids conn
    · rw [hid', Finmap.lookup_insert]
      exact Eq.congr_left hfound.symm
    · rw [Finmap.lookup_insert_of_ne _ hid']

/-- A connection is removed together with its entry. -/
theorem Stored.remove (h : Stored s) (id : UInt64) :
    Stored (s.remove id (s.manager.unregisterConnection id)) := by
  refine ⟨h.replaced_eq, fun id' conn' => ?_⟩
  show (s.manager.connections.erase id).lookup id' = some conn' ↔ _
  unfold ConnectionTable.remove
  dsimp only
  by_cases hid : id' = id
  · subst hid
    rw [Finmap.lookup_erase]
    refine iff_of_false nofun ?_
    rintro ⟨hmem, hstored⟩
    cases hfound : s.manager.getConnection id' with
    | none =>
      rw [hfound] at hmem
      rw [(h.stored_iff id' conn').mpr ⟨hmem, hstored⟩] at hfound
      cases hfound
    | some conn =>
      rw [hfound] at hmem
      obtain ⟨hne, hmem⟩ := Finset.mem_erase.mp hmem
      rw [(h.stored_iff id' conn').mpr ⟨hmem, hstored⟩, Option.some.injEq] at hfound
      exact hne hfound
  · rw [Finmap.lookup_erase_ne hid]
    refine (h.stored_iff id' conn').trans (and_congr_left fun hstored => ?_)
    cases hfound : s.manager.getConnection id with
    | none => exact Iff.rfl
    | some conn =>
      have hne : conn' ≠ conn := by
        rintro rfl
        exact hid (hstored.symm.trans ((h.stored_iff id conn').mp hfound).2)
      dsimp only
      rw [Finset.mem_erase, and_iff_right hne]

omit [DecidableEq C] in
/-- `CloseConnection` removes what `UnregisterConnection` removes. -/
theorem closeConnection_eq (m : DefaultConnectionManager C) (id : UInt64) :
    (m.closeConnection id).2 = m.unregisterConnection id := by
  unfold DefaultConnectionManager.closeConnection DefaultConnectionManager.unregisterConnection
  cases hfound : m.connections.lookup id with
  | none =>
    have herase : m.connections.erase id = m.connections := by
      refine Finmap.ext_lookup fun id' => ?_
      by_cases hid : id' = id
      · rw [hid, Finmap.lookup_erase, hfound]
      · rw [Finmap.lookup_erase_ne hid]
    rw [herase]
  | some conn => rfl

/-- **A call with a free id keeps the table.** -/
theorem Stored.step (h : Stored s) {a : ManagerCall C} (hfree : IdFree s a)
    {r : ConnectionTable C × Unit} (hr : (connectionTable C).step s a = some r) :
    Stored r.1 := by
  cases a with
  | accept conn =>
    dsimp only [connectionTable] at hr
    split at hr
    · cases hr
    · rename_i hnew
      cases hr
      exact h.register hnew hfree
  | registerConnection conn preset =>
    dsimp only [connectionTable] at hr
    split at hr
    · cases hr
    · rename_i hagain
      cases hr
      by_cases hmem : conn ∈ s.registered
      · exact h.register_again hmem (by tauto)
      · exact h.register hmem (hfree hmem)
  | unregisterConnection id =>
    cases hr
    exact h.remove id
  | closeConnection id =>
    cases hr
    show Stored (s.remove id (s.manager.closeConnection id).2)
    rw [closeConnection_eq]
    exact h.remove id
  | closeAllConnections =>
    cases hr
    refine ⟨h.replaced_eq, fun id conn => iff_of_false ?_ nofun⟩
    show ¬ (∅ : Finmap fun _ : UInt64 => C).lookup id = some conn
    rw [Finmap.lookup_empty]
    nofun

/-- **A registration under an id in use makes two connections of one id.** -/
theorem Stored.collision (h : Stored s) {conn other : C} (hnew : conn ∉ s.registered)
    {preset : UInt64}
    (hused : s.manager.getConnection (s.manager.storedId preset) = some other) :
    ¬ UniqueIds (s.register conn preset) := by
  obtain ⟨-, hids, hregistered, -⟩ := register_eq s conn preset
  obtain ⟨hmem, hid⟩ := (h.stored_iff _ _).mp hused
  have hne : other ≠ conn := by
    rintro rfl
    exact hnew hmem
  intro hunique
  refine hne (hunique.distinct other ?_ conn ?_ ?_)
  · rw [hregistered]
    exact Finset.mem_insert_of_mem hmem
  · rw [hregistered]
    exact Finset.mem_insert_self _ _
  · rw [hids, Function.update_of_ne hne, Function.update_self, hid]

theorem Stored.not_uniqueIds (h : Stored s) {a : ManagerCall C} (hfree : ¬ IdFree s a)
    {r : ConnectionTable C × Unit} (hr : (connectionTable C).step s a = some r) :
    ¬ UniqueIds r.1 := by
  cases a with
  | accept conn =>
    obtain ⟨other, hused⟩ := Option.ne_none_iff_exists'.mp hfree
    dsimp only [connectionTable] at hr
    split at hr
    · cases hr
    · rename_i hnew
      cases hr
      exact h.collision hnew hused
  | registerConnection conn preset =>
    obtain ⟨hnew, hused⟩ := Classical.not_imp.mp hfree
    obtain ⟨other, hused⟩ := Option.ne_none_iff_exists'.mp hused
    dsimp only [connectionTable] at hr
    split at hr
    · cases hr
    · cases hr
      exact h.collision hnew hused
  | unregisterConnection id => exact absurd trivial hfree
  | closeConnection id => exact absurd trivial hfree
  | closeAllConnections => exact absurd trivial hfree

end

/-! ## Whole runs -/

/-- **Exactly when connection ids are unique.** For every sequence of calls on a new
manager, ids are unique throughout if and only if each connection that is registered gets a
free id. -/
theorem connection_ids_unique_iff {C : Type*} [DecidableEq C] (calls : List (ManagerCall C)) :
    (connectionTable C).Always UniqueIds {} calls ↔ (connectionTable C).Along IdFree {} calls :=
  Machine.always_iff_along (I := Stored) (fun _ h => h.uniqueIds)
    (fun _ _ _ h hfree hr => h.step hfree hr) (fun _ _ _ h hfree hr => h.not_uniqueIds hfree hr)
    stored_empty

/-! ## Accepting only -/

section

variable {C : Type*} {s : ConnectionTable C} {n : ℕ}

/-- The ids in use are numbers up to the number of connections. -/
structure Numbered (s : ConnectionTable C) (n : ℕ) : Prop where
  count_eq : s.manager.getConnectionCount = n
  le : ∀ id, s.manager.getConnection id ≠ none → id.toNat ≤ n

/-- The id that comes next is a new one, as long as it does not overflow. -/
theorem Numbered.storedId_eq (h : Numbered s n) (hlt : n + 1 < 2 ^ 64) :
    s.manager.storedId s.manager.acceptId = s.manager.acceptId
      ∧ s.manager.acceptId.toNat = n + 1 := by
  have hnat : s.manager.acceptId.toNat = n + 1 := by
    rw [DefaultConnectionManager.acceptId, h.count_eq, UInt64.toNat_add, UInt64.toNat_ofNat']
    simp only [UInt64.reduceToNat]
    omega
  refine ⟨if_neg ?_, hnat⟩
  intro hzero
  rw [hzero] at hnat
  exact Nat.succ_ne_zero n hnat.symm

theorem Numbered.idFree (h : Numbered s n) (hlt : n + 1 < 2 ^ 64) (conn : C) :
    IdFree s (.accept conn) := by
  obtain ⟨hid, hnat⟩ := h.storedId_eq hlt
  show s.manager.getConnection (s.manager.storedId s.manager.acceptId) = none
  rw [hid]
  by_contra hused
  have hle := h.le _ hused
  rw [hnat] at hle
  exact absurd hle (Nat.not_succ_le_self n)

variable [DecidableEq C]

theorem Numbered.register (h : Numbered s n) (hlt : n + 1 < 2 ^ 64) (conn : C) :
    Numbered (s.register conn s.manager.acceptId) (n + 1) := by
  obtain ⟨hconnections, -, -, -⟩ := register_eq s conn s.manager.acceptId
  obtain ⟨hid, hnat⟩ := h.storedId_eq hlt
  have hfree : s.manager.getConnection s.manager.acceptId = none := hid ▸ h.idFree hlt conn
  rw [hid] at hconnections
  constructor
  · have hkeys : (s.manager.connections.insert s.manager.acceptId conn).keys
        = insert s.manager.acceptId s.manager.connections.keys := by
      ext id
      simp only [Finmap.mem_keys, Finmap.mem_insert, Finset.mem_insert]
    have hnew : s.manager.acceptId ∉ s.manager.connections.keys := by
      rw [Finmap.mem_keys, ← Finmap.lookup_eq_none]
      exact hfree
    rw [DefaultConnectionManager.getConnectionCount, hconnections, hkeys,
      Finset.card_insert_of_notMem hnew]
    exact congrArg (· + 1) h.count_eq
  · intro id hused
    rw [DefaultConnectionManager.getConnection, hconnections] at hused
    by_cases heq : id = s.manager.acceptId
    · rw [heq, hnat]
    · rw [Finmap.lookup_insert_of_ne _ heq] at hused
      exact (h.le id hused).trans (Nat.le_succ n)

/-- **A server that never removes a connection gives each its own id**, as long as the
ids fit into 64 bits. -/
theorem accepts_unique (conns : List C) (hlt : conns.length < 2 ^ 64) :
    (connectionTable C).Always UniqueIds {} (conns.map .accept) := by
  have hfree : ∀ (conns : List C) (s : ConnectionTable C) (n : ℕ), Numbered s n →
      n + conns.length < 2 ^ 64 → (connectionTable C).Along IdFree s (conns.map .accept) := by
    intro conns
    induction conns with
    | nil => exact fun _ _ _ _ => trivial
    | cons conn conns ih =>
      intro s n h hlt r hr
      rw [List.length_cons] at hlt
      refine ⟨h.idFree (by omega) conn, ih r.1 (n + 1) ?_ (by omega)⟩
      dsimp only [connectionTable] at hr
      split at hr
      · cases hr
      · cases hr
        exact h.register (by omega) conn
  refine Machine.always_of_along (I := Stored) (fun _ h => h.uniqueIds)
    (fun _ _ _ h hfree hr => h.step hfree hr) stored_empty (hfree conns {} 0 ⟨rfl, ?_⟩ ?_)
  · exact fun id hused => absurd rfl hused
  · rwa [Nat.zero_add]

end

/-! ## Two connections of one id -/

/-- Of three connections, the first is removed before the third is accepted, which is given
the id of the second. -/
theorem connection_ids_not_unique :
    ¬ (connectionTable ℕ).Always UniqueIds {}
      [.accept 1, .accept 2, .unregisterConnection 1, .accept 3] := by
  intro halways
  have hrun : (connectionTable ℕ).run {}
      [.accept 1, .accept 2, .unregisterConnection 1, .accept 3] = some (_, _) := rfl
  have hunique := halways.of_run hrun
  have heq : (2 : ℕ) = 3 :=
    hunique.distinct 2 (by decide +kernel) 3 (by decide +kernel) (by decide +kernel)
  cases heq
