import HttpServer.ConnectionLife
import HttpServer.ConnectionManager
import HttpServer.SharedOwnership

/-!
# Who keeps a connection

A connection is a `std::shared_ptr` from `acceptLoop` on: the map of the connection manager has
one, its reader takes one for the time of a callback, and so does the dispatcher for what it has in
its queue. When it is upgraded, `CreateAndHandle` makes a session that points to it, the thread of
the download points to both, and the new data callback of the connection points to the session.

The callback for messages points to the session too, and it is a member of that session. So a
session keeps itself, and nothing ever takes the callback away: no session is destroyed, and no
connection that has been upgraded, not by the end of the server either. Other connections are kept
by the map, which the server never removes an entry from, to the end of the server and no longer
than somebody uses them (`ServerObjects.kept_connections`). Only `Close` and the destructor
close a descriptor; that the client has gone does not. `ServerObjects.left_behind` says what a
server leaves when it has come to its end.
-/

/-! ## The source -/

/-- `Close` of a connection, from its first line to its last. -/
def ConnectionLife.close (c : ConnectionLife) : ConnectionLife :=
  if 0 ≤ c.conn.socketFd then c.closeDescriptor.triggerEvent .closed else c

/-- What the pointers point to: the connection manager, and the connections and their sessions in
the order of `acceptLoop`. -/
inductive Shared
  | manager
  | connection (n : ℕ)
  | session (n : ℕ)
  deriving DecidableEq, Repr

/-- A connection, and whether its data callback is that of a session. Before that it is the one
of the server, which points to nothing that is shared. -/
structure ServedConnection where
  life : ConnectionLife
  upgraded : Bool := false
  deriving DecidableEq, Repr

/-- The server with what it shares: whether there is a server, the connection manager, the
connections, the pointers to connections on stacks and in queues, the threads of downloads, and
what has not been destroyed yet. -/
structure ServerObjects where
  running : Bool := true
  table : ConnectionTable ℕ := {}
  connections : List ServedConnection := []
  locks : List ℕ := []
  downloads : List ℕ := []
  alive : Finset Shared := {.manager}

/-- What is done with pointers. -/
inductive OwnerAction
  /-- A turn of `acceptLoop` up to its end, where the pointer of the turn is still there. -/
  | accept (fd : ℕ)
  /-- A pointer to a connection is made from another one or with `self_connection_.lock()`. -/
  | lock (n : ℕ)
  | release (n : ℕ)
  /-- `OnData` with an upgrade request, whose answer could be sent: `CreateAndHandle` and the new
  data callback. -/
  | upgrade (n : ℕ)
  /-- The thread of a download comes to its end. -/
  | finish (n : ℕ)
  | close (n : ℕ)
  /-- `~HttpServer` lets go of the connection manager. -/
  | stop
  /-- The destructor of what nothing points to. -/
  | destroy (x : Shared)
  deriving DecidableEq, Repr

namespace ServerObjects

variable (s : ServerObjects)

/-- The data callback of a connection is that of its session. -/
def upgraded (n : ℕ) : Bool := s.connections[n]?.any ServedConnection.upgraded

/-- The pointers outside of all of them: the one of the server, those on stacks and in queues, and
what the threads of downloads have captured. -/
def heldPointers : List Shared :=
  (if s.running then [.manager] else []) ++ s.locks.map .connection
    ++ s.downloads.flatMap fun n => [.connection n, .session n]

/-- **Who points to whom.** A session has `conn_`, and itself in what `on_message_` has captured. -/
def ownership : Ownership Shared where
  alive := s.alive
  pointers
    | .manager => s.table.manager.connections.entries.map fun entry => .connection entry.2
    | .connection n => if s.upgraded n then {.session n} else 0
    | .session n => {.connection n, .session n}
  held := s.heldPointers

/-- A member function of a connection is called. -/
def modify (n : ℕ) (f : ServedConnection → ServedConnection) : ServerObjects :=
  { s with connections := s.connections.modify n f }

/-- A connection could send and has the data callback of the server. -/
def CanUpgrade (n : ℕ) : Prop :=
  ∃ c ∈ s.connections[n]?, c.life.conn.state = .connected ∧ c.upgraded = false

/-- **When an action can be taken.** A connection is used by those who have a pointer to it, and
`lock` fails from when nobody has one. -/
def Enabled : OwnerAction → Prop
  | .accept _ => s.running = true
  | .lock n => .connection n ∈ s.alive ∧ s.ownership.useCount (.connection n) ≠ 0
  | .release n => n ∈ s.locks
  | .upgrade n => s.running = true ∧ n ∈ s.locks ∧ s.CanUpgrade n
  | .finish n => n ∈ s.downloads
  | .close n => n ∈ s.locks
  | .stop => s.running = true
  | .destroy x => x ∈ s.alive ∧ s.ownership.useCount x = 0

/-- The destructors: that of a connection closes it, and that of a session does. -/
def destroy (x : Shared) : ServerObjects :=
  let s := match x with
    | .manager => s
    | .connection n => s.modify n fun c => { c with life := c.life.destroy }
    | .session n => s.modify n fun c => { c with life := c.life.close }
  { s with alive := s.alive.erase x }

/-- What an action does. -/
def perform : OwnerAction → ServerObjects
  | .accept fd =>
    let n := s.connections.length
    { s with
      table := s.table.register n s.table.manager.acceptId
      connections := s.connections ++ [{ life := .ofDescriptor fd }]
      locks := n :: s.locks
      alive := insert (.connection n) s.alive }
  | .lock n => { s with locks := n :: s.locks }
  | .release n => { s with locks := s.locks.erase n }
  | .upgrade n =>
    { s.modify n fun c => { c with upgraded := true } with
      downloads := n :: s.downloads
      alive := insert (.session n) s.alive }
  | .finish n => { s with downloads := s.downloads.erase n }
  | .close n => s.modify n fun c => { c with life := c.life.close }
  | .stop => { s with running := false }
  | .destroy x => s.destroy x

instance (n : ℕ) : Decidable (s.CanUpgrade n) :=
  inferInstanceAs (Decidable (∃ c ∈ s.connections[n]?,
    c.life.conn.state = .connected ∧ c.upgraded = false))

instance : (a : OwnerAction) → Decidable (s.Enabled a)
  | .accept _ => inferInstanceAs (Decidable (s.running = true))
  | .lock n => inferInstanceAs (Decidable (.connection n ∈ s.alive
      ∧ s.ownership.useCount (.connection n) ≠ 0))
  | .release n => inferInstanceAs (Decidable (n ∈ s.locks))
  | .upgrade n => inferInstanceAs (Decidable (s.running = true ∧ n ∈ s.locks ∧ s.CanUpgrade n))
  | .finish n => inferInstanceAs (Decidable (n ∈ s.downloads))
  | .close n => inferInstanceAs (Decidable (n ∈ s.locks))
  | .stop => inferInstanceAs (Decidable (s.running = true))
  | .destroy x => inferInstanceAs (Decidable (x ∈ s.alive ∧ s.ownership.useCount x = 0))

end ServerObjects

/-- The server and what it shares, in any order of the actions. -/
def serverObjects : Machine ServerObjects OwnerAction Unit :=
  ⟨fun s a => if s.Enabled a then some (s.perform a, ()) else none⟩

theorem serverObjects_step {s : ServerObjects} {a : OwnerAction} {r : ServerObjects × Unit} :
    serverObjects.step s a = some r ↔ s.Enabled a ∧ r = (s.perform a, ()) := by
  show (if s.Enabled a then some (s.perform a, ()) else none) = some r ↔ _
  split
  · rename_i henabled
    rw [Option.some.injEq, eq_comm, and_iff_right henabled]
  · rename_i hno
    exact iff_of_false nofun fun h => hno h.1

namespace ServerObjects

variable {s : ServerObjects} {n : ℕ} {x : Shared}

/-! ## Pointers -/

theorem mem_held : x ∈ s.ownership.held ↔ s.running = true ∧ x = .manager
    ∨ (∃ n ∈ s.locks, x = .connection n)
    ∨ ∃ n ∈ s.downloads, x = .connection n ∨ x = .session n := by
  show x ∈ (s.heldPointers : Multiset Shared) ↔ _
  rw [Multiset.mem_coe, heldPointers, List.mem_append, List.mem_append, List.mem_map,
    List.mem_flatMap, or_assoc]
  simp only [List.mem_cons, List.not_mem_nil, or_false]
  refine or_congr ?_ (or_congr (by simp only [eq_comm]) Iff.rfl)
  cases s.running <;> simp

theorem mem_held_connection :
    .connection n ∈ s.ownership.held ↔ n ∈ s.locks ∨ n ∈ s.downloads := by
  simp [mem_held]

theorem mem_manager_pointers : x ∈ s.ownership.pointers .manager
    ↔ ∃ n id, s.table.manager.getConnection id = some n ∧ x = .connection n := by
  show x ∈ s.table.manager.connections.entries.map (fun entry => Shared.connection entry.2) ↔ _
  rw [Multiset.mem_map]
  constructor
  · rintro ⟨⟨id, n⟩, hentry, rfl⟩
    exact ⟨n, id, Finmap.lookup_eq_some_iff.mpr hentry, rfl⟩
  · rintro ⟨n, id, hentry, rfl⟩
    exact ⟨⟨id, n⟩, Finmap.lookup_eq_some_iff.mp hentry, rfl⟩

theorem mem_connection_pointers : x ∈ s.ownership.pointers (.connection n)
    ↔ s.upgraded n = true ∧ x = .session n := by
  show x ∈ (if s.upgraded n then {.session n} else 0 : Multiset Shared) ↔ _
  by_cases h : s.upgraded n = true
  · rw [if_pos h, Multiset.mem_singleton, and_iff_right h]
  · rw [if_neg h]
    exact iff_of_false (Multiset.notMem_zero _) fun hand => h hand.1

theorem mem_session_pointers : x ∈ s.ownership.pointers (.session n)
    ↔ x = .connection n ∨ x = .session n := by
  show x ∈ ({.connection n, .session n} : Multiset Shared) ↔ _
  rw [Multiset.insert_eq_cons, Multiset.mem_cons, Multiset.mem_singleton]

/-- **A session keeps itself.** -/
theorem session_keepsItself (h : .session n ∈ s.alive) :
    s.ownership.KeepsItself {.session n} where
  alive := by
    rintro x rfl
    exact h
  owned := by
    rintro x rfl
    exact ⟨.session n, rfl, mem_session_pointers.mpr (.inr rfl)⟩

/-! ## One action -/

theorem getElem?_modify (f : ServedConnection → ServedConnection) (m : ℕ) :
    (s.modify n f).connections[m]? = s.connections[m]?.map fun c => if n = m then f c else c :=
  List.getElem?_modify f n s.connections m

theorem upgraded_modify {f : ServedConnection → ServedConnection}
    (hf : ∀ c, (f c).upgraded = c.upgraded) (m : ℕ) : (s.modify n f).upgraded m = s.upgraded m := by
  rw [upgraded, upgraded, getElem?_modify, Option.any_map]
  congr 1
  funext c
  show ServedConnection.upgraded (if n = m then f c else c) = _
  split
  · exact hf c
  · rfl

theorem upgraded_upgrade (hlt : n < s.connections.length) (m : ℕ) :
    (s.perform (.upgrade n)).upgraded m = (decide (n = m) || s.upgraded m) := by
  show ((s.modify n fun c => { c with upgraded := true }).connections[m]?).any
    ServedConnection.upgraded = _
  rw [getElem?_modify, Option.any_map, upgraded]
  by_cases hm : n = m
  · subst hm
    rw [List.getElem?_eq_getElem hlt]
    simp
  · simp only [hm, if_false, decide_false, Bool.false_or]

theorem upgraded_accept (fd : ℕ) (m : ℕ) :
    (s.perform (.accept fd)).upgraded m = s.upgraded m := by
  show ((s.connections ++ [{ life := ConnectionLife.ofDescriptor fd }])[m]?).any
    ServedConnection.upgraded = _
  rw [upgraded, List.getElem?_append]
  split
  · rfl
  · rename_i hge
    rw [List.getElem?_eq_none (Nat.not_lt.mp hge)]
    cases m - s.connections.length <;> rfl

theorem destroy_alive : (s.destroy x).alive = s.alive.erase x := by
  cases x <;> rfl

theorem destroy_upgraded (m : ℕ) : (s.destroy x).upgraded m = s.upgraded m := by
  cases x with
  | manager => rfl
  | connection n =>
    exact upgraded_modify (f := fun c => { c with life := c.life.destroy }) (fun _ => rfl) m
  | session n =>
    exact upgraded_modify (f := fun c => { c with life := c.life.close }) (fun _ => rfl) m

/-- **Only what nobody points to is destroyed.** -/
theorem destroyed_of_perform {a : OwnerAction} (ha : s.Enabled a) (hx : x ∈ s.alive)
    (hgone : x ∉ (s.perform a).alive) : s.ownership.useCount x = 0 := by
  cases a with
  | accept fd => exact absurd (Finset.mem_insert_of_mem hx) hgone
  | upgrade n => exact absurd (Finset.mem_insert_of_mem hx) hgone
  | destroy y =>
    obtain ⟨-, hcount⟩ := ha
    have hmem : x ∉ s.alive.erase y := destroy_alive (s := s) ▸ hgone
    by_cases hy : x = y
    · rw [hy]
      exact hcount
    · exact absurd (Finset.mem_erase.mpr ⟨hy, hx⟩) hmem
  | lock n => exact absurd hx hgone
  | release n => exact absurd hx hgone
  | finish n => exact absurd hx hgone
  | close n => exact absurd hx hgone
  | stop => exact absurd hx hgone

/-- **New pointers from outside** are to what is alive. -/
theorem held_of_perform {a : OwnerAction} (ha : s.Enabled a)
    (hx : x ∈ (s.perform a).ownership.held) :
    x ∈ s.ownership.held ∨ x ∈ (s.perform a).alive := by
  rw [mem_held] at hx ⊢
  cases a with
  | accept fd =>
    obtain hserver | ⟨m, hm, rfl⟩ | hdownload := hx
    · exact .inl (.inl hserver)
    · obtain rfl | hm := List.mem_cons.mp hm
      · exact .inr (Finset.mem_insert_self _ _)
      · exact .inl (.inr (.inl ⟨m, hm, rfl⟩))
    · exact .inl (.inr (.inr hdownload))
  | lock n =>
    obtain hserver | ⟨m, hm, rfl⟩ | hdownload := hx
    · exact .inl (.inl hserver)
    · obtain rfl | hm := List.mem_cons.mp hm
      · exact .inr ha.1
      · exact .inl (.inr (.inl ⟨m, hm, rfl⟩))
    · exact .inl (.inr (.inr hdownload))
  | release n =>
    obtain hserver | ⟨m, hm, rfl⟩ | hdownload := hx
    · exact .inl (.inl hserver)
    · exact .inl (.inr (.inl ⟨m, List.mem_of_mem_erase hm, rfl⟩))
    · exact .inl (.inr (.inr hdownload))
  | upgrade n =>
    obtain hserver | hlock | ⟨m, hm, hxm⟩ := hx
    · exact .inl (.inl hserver)
    · exact .inl (.inr (.inl hlock))
    · obtain rfl | hm := List.mem_cons.mp hm
      · obtain rfl | rfl := hxm
        · exact .inl (.inr (.inl ⟨m, ha.2.1, rfl⟩))
        · exact .inr (Finset.mem_insert_self _ _)
      · exact .inl (.inr (.inr ⟨m, hm, hxm⟩))
  | finish n =>
    obtain hserver | hlock | ⟨m, hm, hxm⟩ := hx
    · exact .inl (.inl hserver)
    · exact .inl (.inr (.inl hlock))
    · exact .inl (.inr (.inr ⟨m, List.mem_of_mem_erase hm, hxm⟩))
  | close n => exact .inl hx
  | stop =>
    obtain ⟨hrunning, -⟩ | hrest := hx
    · cases hrunning
    · exact .inl (.inr hrest)
  | destroy y => exact .inl (by cases y <;> exact hx)

theorem pointers_congr {s' : ServerObjects} (htable : s'.table = s.table)
    (hupgraded : ∀ m, s'.upgraded m = s.upgraded m) :
    s'.ownership.pointers = s.ownership.pointers := by
  funext y
  cases y with
  | manager =>
    show s'.table.manager.connections.entries.map _ = s.table.manager.connections.entries.map _
    rw [htable]
  | connection m =>
    show (if s'.upgraded m then _ else _) = if s.upgraded m then _ else _
    rw [hupgraded]
  | session m => rfl

/-- What a new connection in the map adds. -/
theorem getConnection_accept {fd : ℕ} {id : UInt64} {m : ℕ}
    (h : (s.perform (.accept fd)).table.manager.getConnection id = some m) :
    m = s.connections.length ∨ s.table.manager.getConnection id = some m := by
  have hconnections : (s.perform (.accept fd)).table.manager.connections = _ :=
    (register_eq s.table s.connections.length s.table.manager.acceptId).1
  rw [DefaultConnectionManager.getConnection, hconnections] at h
  by_cases hid : id = s.table.manager.storedId s.table.manager.acceptId
  · rw [hid, Finmap.lookup_insert] at h
    exact .inl (Option.some.inj h).symm
  · rw [Finmap.lookup_insert_of_ne _ hid] at h
    exact .inr h

theorem not_upgraded_length : s.upgraded s.connections.length = false := by
  rw [upgraded, List.getElem?_eq_none (Nat.le_refl _)]
  rfl

theorem CanUpgrade.lt (h : s.CanUpgrade n) : n < s.connections.length := by
  obtain ⟨c, hc, -⟩ := h
  exact (List.getElem?_eq_some_iff.mp hc).1

/-- **New pointers in what is alive** are to what is alive. -/
theorem pointers_of_perform {a : OwnerAction} (ha : s.Enabled a) (hsound : s.ownership.Sound)
    {y : Shared} (hy : y ∈ (s.perform a).alive) (hx : x ∈ (s.perform a).ownership.pointers y) :
    y ∈ s.alive ∧ x ∈ s.ownership.pointers y ∨ x ∈ (s.perform a).alive := by
  have hsame : (s.perform a).table = s.table →
      (∀ m, (s.perform a).upgraded m = s.upgraded m) → y ∈ s.alive →
      y ∈ s.alive ∧ x ∈ s.ownership.pointers y ∨ x ∈ (s.perform a).alive := by
    intro htable hupgraded hbefore
    rw [pointers_congr htable hupgraded] at hx
    exact .inl ⟨hbefore, hx⟩
  cases a with
  | accept fd =>
    cases y with
    | manager =>
      obtain ⟨m, id, hentry, rfl⟩ := mem_manager_pointers.mp hx
      obtain rfl | hbefore := getConnection_accept hentry
      · exact .inr (Finset.mem_insert_self _ _)
      · exact .inl ⟨Finset.mem_of_mem_insert_of_ne hy nofun,
          mem_manager_pointers.mpr ⟨m, id, hbefore, rfl⟩⟩
    | connection m =>
      obtain ⟨hupgraded, rfl⟩ := mem_connection_pointers.mp hx
      rw [upgraded_accept] at hupgraded
      have hne : m ≠ s.connections.length := by
        rintro rfl
        rw [not_upgraded_length] at hupgraded
        cases hupgraded
      exact .inl ⟨Finset.mem_of_mem_insert_of_ne hy fun h => hne (Shared.connection.inj h),
        mem_connection_pointers.mpr ⟨hupgraded, rfl⟩⟩
    | session m =>
      exact .inl ⟨Finset.mem_of_mem_insert_of_ne hy nofun, hx⟩
  | upgrade n =>
    obtain ⟨-, hlock, hcan⟩ := ha
    have hconnection : .connection n ∈ (s.perform (.upgrade n)).alive :=
      Finset.mem_insert_of_mem (hsound.of_held (mem_held_connection.mpr (.inl hlock)))
    have hsession : .session n ∈ (s.perform (.upgrade n)).alive := Finset.mem_insert_self _ _
    cases y with
    | manager => exact .inl ⟨Finset.mem_of_mem_insert_of_ne hy nofun, hx⟩
    | connection m =>
      obtain ⟨hupgraded, rfl⟩ := mem_connection_pointers.mp hx
      by_cases hm : n = m
      · exact .inr (hm ▸ hsession)
      · rw [upgraded_upgrade hcan.lt, decide_eq_false hm, Bool.false_or] at hupgraded
        exact .inl ⟨Finset.mem_of_mem_insert_of_ne hy nofun,
          mem_connection_pointers.mpr ⟨hupgraded, rfl⟩⟩
    | session m =>
      by_cases hm : n = m
      · subst hm
        obtain rfl | rfl := mem_session_pointers.mp hx
        · exact .inr hconnection
        · exact .inr hsession
      · exact .inl ⟨Finset.mem_of_mem_insert_of_ne hy fun h => hm (Shared.session.inj h).symm, hx⟩
  | lock n => exact hsame rfl (fun _ => rfl) hy
  | release n => exact hsame rfl (fun _ => rfl) hy
  | finish n => exact hsame rfl (fun _ => rfl) hy
  | close n =>
    exact hsame rfl (upgraded_modify (f := fun c => { c with life := c.life.close }) fun _ => rfl)
      hy
  | stop => exact hsame rfl (fun _ => rfl) hy
  | destroy z =>
    refine hsame (by cases z <;> rfl) (fun m => destroy_upgraded m) ?_
    exact Finset.mem_of_mem_erase (destroy_alive (s := s) ▸ hy)

/-- **No pointer comes to dangle.** -/
theorem sound_perform {a : OwnerAction} (ha : s.Enabled a) (hsound : s.ownership.Sound) :
    (s.perform a).ownership.Sound :=
  hsound.mono (fun _ hx => held_of_perform ha hx)
    (fun _ hy _ hx => pointers_of_perform ha hsound hy hx)
    (fun _ hx hgone => destroyed_of_perform ha hx hgone)

/-- **No session is destroyed.** -/
theorem session_perform {a : OwnerAction} (ha : s.Enabled a) (h : .session n ∈ s.alive) :
    .session n ∈ (s.perform a).alive := by
  have hkeeps : (s.perform a).ownership.KeepsItself {.session n} := by
    refine (session_keepsItself h).mono ?_ fun _ hx hgone => destroyed_of_perform ha hx hgone
    rintro _ rfl x hx
    exact mem_session_pointers.mpr (mem_session_pointers.mp hx)
  exact hkeeps.alive _ rfl

theorem not_destroy_session (h : s.Enabled (.destroy (.session n))) : False :=
  (session_keepsItself h.1).useCount_ne_zero rfl h.2

end ServerObjects

/-! ## Descriptors -/

/-- A connection from a descriptor that it has not closed. -/
def ConnectionLife.IsOpen (c : ConnectionLife) : Prop :=
  ∃ fd : ℕ, c.conn.socketFd = fd ∧ c.descriptors = [⟨fd, 0⟩]

/-- A connection from a descriptor that it has closed once. -/
def ConnectionLife.IsShut (c : ConnectionLife) : Prop :=
  c.conn.socketFd = -1 ∧ ∃ fd : ℕ, c.descriptors = [⟨fd, 1⟩]

namespace ConnectionLife

variable {c : ConnectionLife}

theorem isOpen_ofDescriptor (fd : ℕ) : (ofDescriptor fd).IsOpen := ⟨fd, rfl, rfl⟩

theorem IsOpen.closeDescriptor (h : c.IsOpen) : c.closeDescriptor.IsShut := by
  obtain ⟨fd, hfd, hdescriptors⟩ := h
  have hpos : 0 ≤ c.conn.socketFd := hfd ▸ Int.natCast_nonneg fd
  refine ⟨?_, fd, ?_⟩
  · show c.conn.close.socketFd = -1
    rw [TCPConnection.close_eq hpos]
  · show closeSocket c.descriptors c.conn.socketFd = _
    rw [hdescriptors, hfd, closeSocket, if_pos rfl]

theorem IsOpen.nonneg (h : c.IsOpen) : 0 ≤ c.conn.socketFd := by
  obtain ⟨fd, hfd, -⟩ := h
  exact hfd ▸ Int.natCast_nonneg fd

theorem IsShut.neg (h : c.IsShut) : ¬ 0 ≤ c.conn.socketFd := by
  rw [h.1]
  decide

/-- `Close` and the destructor close a descriptor that is open, and only such a one. -/
theorem isShut_close (h : c.IsOpen ∨ c.IsShut) : c.close.IsShut := by
  unfold close
  obtain hopen | hshut := h
  · rw [if_pos hopen.nonneg]
    exact hopen.closeDescriptor
  · rw [if_neg hshut.neg]
    exact hshut

theorem isShut_destroy (h : c.IsOpen ∨ c.IsShut) : c.destroy.IsShut := by
  unfold destroy
  obtain hopen | hshut := h
  · rw [if_pos hopen.nonneg]
    exact hopen.closeDescriptor
  · rw [if_neg hshut.neg]
    exact hshut

end ConnectionLife

namespace ServerObjects

variable {s : ServerObjects} {n : ℕ} {actions : List OwnerAction}

theorem modify_eq_some {f : ServedConnection → ServedConnection} {m : ℕ} {c' : ServedConnection}
    (h : (s.modify m f).connections[n]? = some c') :
    ∃ c, s.connections[n]? = some c ∧ (m = n ∧ c' = f c ∨ m ≠ n ∧ c' = c) := by
  rw [getElem?_modify] at h
  obtain ⟨c, hc, heq⟩ := Option.map_eq_some_iff.mp h
  refine ⟨c, hc, ?_⟩
  by_cases hm : m = n
  · rw [if_pos hm] at heq
    exact .inl ⟨hm, heq.symm⟩
  · rw [if_neg hm] at heq
    exact .inr ⟨hm, heq.symm⟩

/-- **What an action does to the descriptor of a connection.** -/
theorem life_of_perform {a : OwnerAction} (ha : s.Enabled a) {c' : ServedConnection}
    (h : (s.perform a).connections[n]? = some c') :
    (∃ fd, a = .accept fd ∧ n = s.connections.length ∧ c'.life = .ofDescriptor fd)
      ∨ ∃ c, s.connections[n]? = some c ∧
        (a = .close n ∧ c'.life = c.life.close
          ∨ a = .destroy (.connection n) ∧ c'.life = c.life.destroy
          ∨ a ≠ .close n ∧ a ≠ .destroy (.connection n) ∧ c'.life = c.life) := by
  cases a with
  | accept fd =>
    change (s.connections ++ [{ life := ConnectionLife.ofDescriptor fd }])[n]? = some c' at h
    rw [List.getElem?_append] at h
    split at h
    · exact .inr ⟨c', h, .inr (.inr ⟨nofun, nofun, rfl⟩)⟩
    · rw [List.getElem?_singleton] at h
      split at h
      · cases h
        exact .inl ⟨fd, rfl, by omega, rfl⟩
      · cases h
  | upgrade m =>
    obtain ⟨c, hc, ⟨-, rfl⟩ | ⟨-, rfl⟩⟩ := modify_eq_some h
    · exact .inr ⟨c, hc, .inr (.inr ⟨nofun, nofun, rfl⟩)⟩
    · exact .inr ⟨c', hc, .inr (.inr ⟨nofun, nofun, rfl⟩)⟩
  | close m =>
    obtain ⟨c, hc, ⟨rfl, rfl⟩ | ⟨hm, rfl⟩⟩ := modify_eq_some h
    · exact .inr ⟨c, hc, .inl ⟨rfl, rfl⟩⟩
    · exact .inr ⟨c', hc, .inr (.inr ⟨fun heq => hm (OwnerAction.close.inj heq), nofun, rfl⟩)⟩
  | destroy x =>
    cases x with
    | manager => exact .inr ⟨c', h, .inr (.inr ⟨nofun, nofun, rfl⟩)⟩
    | connection m =>
      obtain ⟨c, hc, ⟨rfl, rfl⟩ | ⟨hm, rfl⟩⟩ := modify_eq_some h
      · exact .inr ⟨c, hc, .inr (.inl ⟨rfl, rfl⟩)⟩
      · exact .inr ⟨c', hc, .inr (.inr ⟨nofun,
          fun heq => hm (Shared.connection.inj (OwnerAction.destroy.inj heq)), rfl⟩)⟩
    | session m => exact (not_destroy_session ha).elim
  | lock m => exact .inr ⟨c', h, .inr (.inr ⟨nofun, nofun, rfl⟩)⟩
  | release m => exact .inr ⟨c', h, .inr (.inr ⟨nofun, nofun, rfl⟩)⟩
  | finish m => exact .inr ⟨c', h, .inr (.inr ⟨nofun, nofun, rfl⟩)⟩
  | stop => exact .inr ⟨c', h, .inr (.inr ⟨nofun, nofun, rfl⟩)⟩

/-! ## Whole runs -/

/-- **All connections are in the map**, each under the id that `acceptLoop` has given it. -/
structure InTable (s : ServerObjects) : Prop where
  stored : Stored s.table
  numbered : Numbered s.table s.connections.length
  registered_iff : ∀ n, n ∈ s.table.registered ↔ n < s.connections.length

/-- **What holds in every run**, with the actions so far: no pointer dangles; the upgraded
connections are those with a session, and no session is destroyed; a connection is open until it is
closed or destroyed; and the map has all connections, as long as there are ids for them. -/
structure Account (s : ServerObjects) (actions : List OwnerAction) : Prop where
  sound : s.ownership.Sound
  upgraded_iff : ∀ n, s.upgraded n = true ↔ .upgrade n ∈ actions
  session_iff : ∀ n, .session n ∈ s.alive ↔ .upgrade n ∈ actions
  connection_lt : ∀ n, .connection n ∈ s.alive → n < s.connections.length
  close_lt : ∀ n, .close n ∈ actions → n < s.connections.length
  opened : ∀ n c, s.connections[n]? = some c → .connection n ∈ s.alive → .close n ∉ actions →
    c.life.IsOpen
  shut : ∀ n c, s.connections[n]? = some c → .connection n ∉ s.alive ∨ .close n ∈ actions →
    c.life.IsShut
  inTable : s.connections.length < 2 ^ 64 → InTable s

theorem account_start : Account {} [] where
  sound x hcount := by
    obtain hheld | ⟨y, hy, hx⟩ := Ownership.useCount_ne_zero_iff.mp hcount
    · obtain ⟨-, rfl⟩ | ⟨n, hn, -⟩ | ⟨n, hn, -⟩ := mem_held.mp hheld
      · exact Finset.mem_singleton_self _
      · cases hn
      · cases hn
    · rw [Finset.mem_singleton.mp hy] at hx
      obtain ⟨n, id, hentry, -⟩ := mem_manager_pointers.mp hx
      cases hentry
  upgraded_iff n := iff_of_false nofun nofun
  session_iff n := iff_of_false (fun h => nomatch Finset.mem_singleton.mp h) nofun
  connection_lt n h := nomatch Finset.mem_singleton.mp h
  close_lt n h := nomatch h
  opened n c h := nomatch h
  shut n c h := nomatch h
  inTable _ := ⟨stored_empty, ⟨rfl, fun id hused => absurd rfl hused⟩,
    fun n => iff_of_false nofun (Nat.not_lt_zero n)⟩

theorem length_perform {a : OwnerAction} :
    s.connections.length ≤ (s.perform a).connections.length := by
  cases a with
  | accept fd =>
    show _ ≤ (s.connections ++ [_]).length
    rw [List.length_append]
    exact Nat.le_add_right _ _
  | destroy x =>
    cases x with
    | manager => exact Nat.le_refl _
    | connection m => exact (List.length_modify ..).ge
    | session m => exact (List.length_modify ..).ge
  | upgrade m => exact (List.length_modify ..).ge
  | close m => exact (List.length_modify ..).ge
  | lock m => exact Nat.le_refl _
  | release m => exact Nat.le_refl _
  | finish m => exact Nat.le_refl _
  | stop => exact Nat.le_refl _

theorem upgraded_perform {a : OwnerAction} (ha : s.Enabled a) :
    (s.perform a).upgraded n = true ↔ s.upgraded n = true ∨ a = .upgrade n := by
  have hsame : (s.perform a).upgraded n = s.upgraded n → a ≠ .upgrade n →
      ((s.perform a).upgraded n = true ↔ s.upgraded n = true ∨ a = .upgrade n) := by
    intro heq hne
    rw [heq, or_iff_left hne]
  cases a with
  | upgrade m =>
    rw [upgraded_upgrade ha.2.2.lt, Bool.or_eq_true, decide_eq_true_iff, or_comm,
      OwnerAction.upgrade.injEq]
  | accept fd => exact hsame (upgraded_accept fd n) nofun
  | close m =>
    exact hsame (upgraded_modify (f := fun c => { c with life := c.life.close }) (fun _ => rfl) n)
      nofun
  | destroy x => exact hsame (destroy_upgraded n) nofun
  | lock m => exact hsame rfl nofun
  | release m => exact hsame rfl nofun
  | finish m => exact hsame rfl nofun
  | stop => exact hsame rfl nofun

theorem session_alive_perform {a : OwnerAction} (ha : s.Enabled a) :
    .session n ∈ (s.perform a).alive ↔ .session n ∈ s.alive ∨ a = .upgrade n := by
  constructor
  · intro h
    cases a with
    | accept fd => exact .inl (Finset.mem_of_mem_insert_of_ne h nofun)
    | upgrade m =>
      obtain heq | hbefore := Finset.mem_insert.mp h
      · exact .inr (congrArg _ (Shared.session.inj heq).symm)
      · exact .inl hbefore
    | destroy x => exact .inl (Finset.mem_of_mem_erase (destroy_alive (s := s) ▸ h))
    | lock m => exact .inl h
    | release m => exact .inl h
    | finish m => exact .inl h
    | close m => exact .inl h
    | stop => exact .inl h
  · rintro (h | rfl)
    · exact session_perform ha h
    · exact Finset.mem_insert_self _ _

theorem connection_alive_perform {a : OwnerAction} :
    .connection n ∈ (s.perform a).alive
      ↔ .connection n ∈ s.alive ∧ a ≠ .destroy (.connection n)
        ∨ ∃ fd, a = .accept fd ∧ n = s.connections.length := by
  have hsame : (s.perform a).alive = s.alive → a ≠ .destroy (.connection n) →
      (∀ fd, a ≠ .accept fd) → (.connection n ∈ (s.perform a).alive
        ↔ .connection n ∈ s.alive ∧ a ≠ .destroy (.connection n)
          ∨ ∃ fd, a = .accept fd ∧ n = s.connections.length) := by
    intro heq hne haccept
    rw [heq, and_iff_left hne, or_iff_left]
    rintro ⟨fd, ha, -⟩
    exact haccept fd ha
  cases a with
  | accept fd =>
    show Shared.connection n ∈ insert (Shared.connection s.connections.length) s.alive ↔ _
    rw [Finset.mem_insert, Shared.connection.injEq]
    constructor
    · rintro (rfl | h)
      · exact .inr ⟨fd, rfl, rfl⟩
      · exact .inl ⟨h, nofun⟩
    · rintro (⟨h, -⟩ | ⟨-, -, rfl⟩)
      · exact .inr h
      · exact .inl rfl
  | upgrade m =>
    show Shared.connection n ∈ insert (Shared.session m) s.alive ↔ _
    rw [Finset.mem_insert, or_iff_right nofun, and_iff_left nofun, or_iff_left]
    rintro ⟨fd, ha, -⟩
    cases ha
  | destroy x =>
    rw [show (s.perform (.destroy x)).alive = s.alive.erase x from destroy_alive,
      Finset.mem_erase, and_comm, or_iff_left]
    · refine and_congr_right fun _ => not_congr ?_
      rw [OwnerAction.destroy.injEq, eq_comm]
    · rintro ⟨fd, ha, -⟩
      cases ha
  | lock m => exact hsame rfl nofun nofun
  | release m => exact hsame rfl nofun nofun
  | finish m => exact hsame rfl nofun nofun
  | close m => exact hsame rfl nofun nofun
  | stop => exact hsame rfl nofun nofun

/-- The map gets an entry for a new connection, and that is all that is done to it. -/
theorem InTable.perform (h : InTable s) {a : OwnerAction}
    (hfits : (s.perform a).connections.length < 2 ^ 64) : InTable (s.perform a) := by
  have hsame : (s.perform a).table = s.table →
      (s.perform a).connections.length = s.connections.length → InTable (s.perform a) := by
    intro htable hlength
    refine ⟨htable ▸ h.stored, ?_, ?_⟩
    · rw [htable, hlength]
      exact h.numbered
    · rw [htable, hlength]
      exact h.registered_iff
  cases a with
  | accept fd =>
    have hlength : (s.perform (.accept fd)).connections.length = s.connections.length + 1 :=
      List.length_append
    have hnew : s.connections.length ∉ s.table.registered := fun hmem =>
      Nat.lt_irrefl _ ((h.registered_iff _).mp hmem)
    have hregistered := (register_eq s.table s.connections.length s.table.manager.acceptId).2.2.1
    rw [hlength] at hfits
    refine ⟨h.stored.register hnew (h.numbered.idFree hfits s.connections.length), ?_, fun n => ?_⟩
    · rw [hlength]
      exact h.numbered.register hfits s.connections.length
    · show n ∈ (s.table.register s.connections.length s.table.manager.acceptId).registered ↔ _
      rw [hregistered, Finset.mem_insert, h.registered_iff, hlength, Nat.lt_succ_iff_lt_or_eq,
        or_comm]
  | destroy x =>
    cases x with
    | manager => exact hsame rfl rfl
    | connection m => exact hsame rfl (List.length_modify ..)
    | session m => exact hsame rfl (List.length_modify ..)
  | upgrade m => exact hsame rfl (List.length_modify ..)
  | close m => exact hsame rfl (List.length_modify ..)
  | lock m => exact hsame rfl rfl
  | release m => exact hsame rfl rfl
  | finish m => exact hsame rfl rfl
  | stop => exact hsame rfl rfl

/-- In the map, a connection is pointed to by the manager. -/
theorem InTable.mem_pointers (h : InTable s) (hn : n < s.connections.length) :
    .connection n ∈ s.ownership.pointers .manager := by
  obtain hentry := (h.stored.stored_iff (s.table.ids n) n).mpr ⟨(h.registered_iff n).mpr hn, rfl⟩
  exact mem_manager_pointers.mpr ⟨n, s.table.ids n, hentry, rfl⟩

/-- **One action keeps the account.** -/
theorem Account.perform (h : Account s actions) {a : OwnerAction} (ha : s.Enabled a) :
    Account (s.perform a) (actions ++ [a]) where
  sound := sound_perform ha h.sound
  upgraded_iff n := by
    rw [upgraded_perform ha, h.upgraded_iff, List.mem_append, List.mem_singleton,
      eq_comm (a := a)]
  session_iff n := by
    rw [session_alive_perform ha, h.session_iff, List.mem_append, List.mem_singleton,
      eq_comm (a := a)]
  connection_lt n hn := by
    obtain ⟨hbefore, -⟩ | ⟨fd, rfl, rfl⟩ := connection_alive_perform.mp hn
    · exact Nat.lt_of_lt_of_le (h.connection_lt n hbefore) length_perform
    · show _ < (s.connections ++ [_]).length
      rw [List.length_append]
      exact Nat.lt_succ_self _
  close_lt n hn := by
    refine Nat.lt_of_lt_of_le ?_ length_perform
    obtain hbefore | hlast := List.mem_append.mp hn
    · exact h.close_lt n hbefore
    · cases List.mem_singleton.mp hlast
      exact h.connection_lt n (h.sound.of_held (mem_held_connection.mpr (.inl ha)))
  opened n c' hc' halive hclose := by
    rw [List.mem_append, List.mem_singleton, not_or] at hclose
    obtain ⟨fd, -, -, hlife⟩ | ⟨c, hc, hlife⟩ := life_of_perform ha hc'
    · rw [hlife]
      exact ConnectionLife.isOpen_ofDescriptor fd
    · obtain ⟨hbefore, hdestroy⟩ | ⟨fd, rfl, rfl⟩ := connection_alive_perform.mp halive
      · obtain ⟨rfl, -⟩ | ⟨rfl, -⟩ | ⟨-, -, heq⟩ := hlife
        · exact absurd rfl hclose.2
        · exact absurd rfl hdestroy
        · rw [heq]
          exact h.opened n c hc hbefore hclose.1
      · exact absurd (List.getElem?_eq_some_iff.mp hc).1 (Nat.lt_irrefl _)
  shut n c' hc' hgone := by
    obtain ⟨fd, rfl, rfl, hlife⟩ | ⟨c, hc, hlife⟩ := life_of_perform ha hc'
    · -- a new connection is alive, and nobody can have closed it
      obtain hdead | hclose := hgone
      · exact absurd (connection_alive_perform.mpr (.inr ⟨fd, rfl, rfl⟩)) hdead
      · obtain hbefore | hlast := List.mem_append.mp hclose
        · exact absurd (h.close_lt _ hbefore) (Nat.lt_irrefl _)
        · cases List.mem_singleton.mp hlast
    · have hstate : c.life.IsOpen ∨ c.life.IsShut := by
        by_cases hshut : .connection n ∉ s.alive ∨ .close n ∈ actions
        · exact .inr (h.shut n c hc hshut)
        · rw [not_or, not_not] at hshut
          exact .inl (h.opened n c hc hshut.1 hshut.2)
      obtain ⟨-, heq⟩ | ⟨-, heq⟩ | ⟨hclose, hdestroy, heq⟩ := hlife
      · rw [heq]
        exact ConnectionLife.isShut_close hstate
      · rw [heq]
        exact ConnectionLife.isShut_destroy hstate
      · rw [heq]
        refine h.shut n c hc ?_
        obtain hdead | hmem := hgone
        · exact .inl fun halive => hdead (connection_alive_perform.mpr (.inl ⟨halive, hdestroy⟩))
        · obtain hbefore | hlast := List.mem_append.mp hmem
          · exact .inr hbefore
          · exact absurd (List.mem_singleton.mp hlast).symm hclose
  inTable hfits := (h.inTable (Nat.lt_of_le_of_lt length_perform hfits)).perform hfits

theorem account_of_run {os : List Unit} (hr : serverObjects.run {} actions = some (s, os)) :
    Account s actions := by
  refine Machine.run_history (I := Account) account_start ?_ hr
  intro s' before a r h hstep
  obtain ⟨ha, rfl⟩ := serverObjects_step.mp hstep
  exact h.perform ha

/-- Where nothing is left to destroy, the manager is there as long as the server is: nothing but the
server points to it. -/
theorem running_of_settled (hsettled : s.ownership.Settled) (h : .manager ∈ s.alive) :
    s.running = true := by
  obtain hheld | ⟨y, -, hx⟩ := Ownership.useCount_ne_zero_iff.mp (hsettled _ h)
  · obtain ⟨hrunning, -⟩ | ⟨n, -, heq⟩ | ⟨n, -, heq⟩ := mem_held.mp hheld
    · exact hrunning
    · cases heq
    · obtain heq | heq := heq <;> cases heq
  · cases y with
    | manager =>
      obtain ⟨n, id, -, heq⟩ := mem_manager_pointers.mp hx
      cases heq
    | connection m => cases (mem_connection_pointers.mp hx).2
    | session m => obtain heq | heq := mem_session_pointers.mp hx <;> cases heq

/-- **A session keeps its connection.** -/
theorem Account.connection_of_upgrade (h : Account s actions) (hn : .upgrade n ∈ actions) :
    .connection n ∈ s.alive :=
  h.sound.of_pointers ((h.session_iff n).mpr hn) (mem_session_pointers.mpr (.inl rfl))

/-- **Who keeps a connection** where nothing is left to destroy. -/
theorem Account.kept (h : Account s actions) (hsettled : s.ownership.Settled)
    (halive : .connection n ∈ s.alive) :
    s.running = true ∨ .upgrade n ∈ actions ∨ n ∈ s.locks := by
  obtain hheld | ⟨y, hy, hx⟩ := Ownership.useCount_ne_zero_iff.mp (hsettled _ halive)
  · obtain hlock | hdownload := mem_held_connection.mp hheld
    · exact .inr (.inr hlock)
    · -- the thread of the download has a pointer to the session
      have hsession : Shared.session n ∈ s.ownership.held :=
        mem_held.mpr (.inr (.inr ⟨n, hdownload, .inr rfl⟩))
      exact .inr (.inl ((h.session_iff n).mp (h.sound.of_held hsession)))
  · cases y with
    | manager => exact .inl (running_of_settled hsettled hy)
    | connection m => cases (mem_connection_pointers.mp hx).2
    | session m =>
      obtain heq | heq := mem_session_pointers.mp hx
      · cases heq
        exact .inr (.inl ((h.session_iff n).mp hy))
      · cases heq

/-- **Who is kept, and by whom.** In every run: a session is never destroyed. A connection is alive
while the server is there, and as long as somebody has a pointer to it, and for ever if it has been
upgraded; otherwise it is destroyed. Its descriptor is open as long as it is alive and has not been
closed, and is closed once. -/
theorem kept_connections {os : List Unit}
    (hr : serverObjects.run {} actions = some (s, os)) (hfits : s.connections.length < 2 ^ 64)
    (hn : n < s.connections.length) :
    (.session n ∈ s.alive ↔ .upgrade n ∈ actions)
      ∧ (s.running = true ∨ .upgrade n ∈ actions ∨ n ∈ s.locks → .connection n ∈ s.alive)
      ∧ (s.ownership.Settled → .connection n ∈ s.alive →
        s.running = true ∨ .upgrade n ∈ actions ∨ n ∈ s.locks)
      ∧ ∃ c, s.connections[n]? = some c
        ∧ (c.life.IsOpen ∧ .connection n ∈ s.alive ∧ .close n ∉ actions
          ∨ c.life.IsShut ∧ (.connection n ∉ s.alive ∨ .close n ∈ actions)) := by
  have h := account_of_run hr
  refine ⟨h.session_iff n, ?_, h.kept, s.connections[n], List.getElem?_eq_getElem hn, ?_⟩
  · rintro (hrunning | hupgrade | hlock)
    · have hmanager : Shared.manager ∈ s.alive :=
        h.sound.of_held (mem_held.mpr (.inl ⟨hrunning, rfl⟩))
      exact h.sound.of_pointers hmanager ((h.inTable hfits).mem_pointers hn)
    · exact h.connection_of_upgrade hupgrade
    · exact h.sound.of_held (mem_held_connection.mpr (.inl hlock))
  · by_cases hshut : .connection n ∉ s.alive ∨ .close n ∈ actions
    · exact .inr ⟨h.shut n _ (List.getElem?_eq_getElem hn) hshut, hshut⟩
    · rw [not_or, not_not] at hshut
      exact .inl ⟨h.opened n _ (List.getElem?_eq_getElem hn) hshut.1 hshut.2, hshut⟩

/-- Two connections, of which the first is upgraded. The server ends and nobody uses them any more:
the second is destroyed, and the first stays, with its descriptor open. -/
theorem kept_connections_leak :
    let run : List OwnerAction := [.accept 7, .accept 8, .upgrade 0, .release 0, .release 1,
      .finish 0, .stop, .destroy .manager, .destroy (.connection 1)]
    ∃ s os, serverObjects.run {} run = some (s, os) ∧ s.running = false ∧ s.heldPointers = []
      ∧ s.ownership.Settled ∧ .connection 1 ∉ s.alive ∧ .connection 0 ∈ s.alive
      ∧ ∃ c, s.connections[0]? = some c ∧ c.life.IsOpen := by
  intro run
  have hr : serverObjects.run {} run = some (_, _) := rfl
  obtain ⟨-, halive, -, c, hc, hopen | ⟨-, hshut⟩⟩ :=
    kept_connections hr (n := 0) (by decide +kernel) (by decide +kernel)
  · exact ⟨_, _, hr, by decide +kernel, by decide +kernel, by decide +kernel, by decide +kernel,
      halive (by decide +kernel), c, hc, hopen.1⟩
  · exact absurd hshut (by decide +kernel)

/-! ## Destructors -/

/-- What the destructors leave alone. -/
theorem destroy_frame {x : Shared} :
    (s.destroy x).running = s.running ∧ (s.destroy x).locks = s.locks := by
  cases x <;> exact ⟨rfl, rfl⟩

/-- Destructors run one after the other. Each is that of another object. -/
theorem run_destroy {xs : List Shared} {s' : ServerObjects} {os : List Unit}
    (hr : serverObjects.run s (xs.map .destroy) = some (s', os)) :
    xs.length + s'.alive.card = s.alive.card ∧ s'.running = s.running ∧ s'.locks = s.locks := by
  induction xs generalizing s os with
  | nil =>
    cases hr
    exact ⟨Nat.zero_add _, rfl, rfl⟩
  | cons x xs ih =>
    obtain ⟨r, os', hstep, hrest, -⟩ := Machine.run_cons_eq_some.mp hr
    obtain ⟨⟨hx, -⟩, rfl⟩ := serverObjects_step.mp hstep
    obtain ⟨hcard, hrunning, hlocks⟩ := ih hrest
    obtain ⟨hrunning', hlocks'⟩ := destroy_frame (s := s) (x := x)
    refine ⟨?_, hrunning.trans hrunning', hlocks.trans hlocks'⟩
    have hless : (s.destroy x).alive.card + 1 = s.alive.card :=
      destroy_alive (s := s) ▸ Finset.card_erase_add_one hx
    change xs.length + s'.alive.card = (s.destroy x).alive.card at hcard
    rw [List.length_cons]
    omega

/-- The destructors come to an end. -/
theorem exists_settled (s : ServerObjects) : ∃ (xs : List Shared) (s' : ServerObjects)
    (os : List Unit), serverObjects.run s (xs.map .destroy) = some (s', os)
      ∧ s'.ownership.Settled := by
  induction hcard : s.alive.card generalizing s with
  | zero =>
    refine ⟨[], s, [], rfl, fun x hx => ?_⟩
    rw [show s.ownership.alive = ∅ from Finset.card_eq_zero.mp hcard] at hx
    cases hx
  | succ n ih =>
    by_cases hsettled : s.ownership.Settled
    · exact ⟨[], s, [], rfl, hsettled⟩
    · obtain ⟨x, hrest⟩ := Classical.not_forall.mp hsettled
      obtain ⟨hx, hcount⟩ := Classical.not_imp.mp hrest
      have hmem : x ∈ s.alive := hx
      have hless : (s.destroy x).alive.card = n := by
        rw [destroy_alive, Finset.card_erase_of_mem hmem, hcard, Nat.add_sub_cancel]
      obtain ⟨xs, s', os, hr, hdone⟩ := ih (s.destroy x) hless
      have hstep : serverObjects.step s (.destroy x) = some (s.destroy x, ()) :=
        serverObjects_step.mpr ⟨⟨hx, not_not.mp hcount⟩, rfl⟩
      exact ⟨x :: xs, s', () :: os, Machine.run_cons_eq_some.mpr
        ⟨_, os, hstep, hr, rfl⟩, hdone⟩

/-- **What is left of the server.** When the server is gone, then in whichever order the destructors
run, they come to an end, and what they leave are the sessions that there have been, with their
connections, and the connections that somebody still has a pointer to. -/
theorem left_behind {os : List Unit} (hr : serverObjects.run {} actions = some (s, os))
    (hrunning : s.running = false) :
    (∃ (xs : List Shared) (s' : ServerObjects) (os' : List Unit),
        serverObjects.run s (xs.map .destroy) = some (s', os') ∧ s'.ownership.Settled)
      ∧ ∀ (xs : List Shared) (s' : ServerObjects) (os' : List Unit),
        serverObjects.run s (xs.map .destroy) = some (s', os') →
        xs.length ≤ s.alive.card ∧ (s'.ownership.Settled → .manager ∉ s'.alive ∧ ∀ n,
          (.session n ∈ s'.alive ↔ .upgrade n ∈ actions)
            ∧ (.connection n ∈ s'.alive ↔ .upgrade n ∈ actions ∨ n ∈ s.locks)) := by
  refine ⟨exists_settled s, fun xs s' os' hdestroy => ?_⟩
  obtain ⟨hcard, hrunning', hlocks'⟩ := run_destroy hdestroy
  refine ⟨hcard ▸ Nat.le_add_right _ _, fun hsettled => ?_⟩
  have h : Account s' (actions ++ xs.map .destroy) :=
    account_of_run (Machine.run_append_eq_some.mpr ⟨s, os, os', hr, hdestroy, rfl⟩)
  have hgone : s'.running ≠ true := by
    rw [hrunning', hrunning]
    exact Bool.false_ne_true
  have hupgrade : ∀ n, .upgrade n ∈ actions ++ xs.map .destroy ↔ .upgrade n ∈ actions := by
    intro n
    rw [List.mem_append, or_iff_left]
    intro hmem
    obtain ⟨x, -, heq⟩ := List.mem_map.mp hmem
    cases heq
  refine ⟨fun hmem => hgone (running_of_settled hsettled hmem), fun n => ⟨?_, ?_⟩⟩
  · rw [h.session_iff, hupgrade]
  · constructor
    · intro halive
      obtain hstill | hmem | hlock := h.kept hsettled halive
      · exact absurd hstill hgone
      · exact .inl ((hupgrade n).mp hmem)
      · exact .inr (hlocks' ▸ hlock)
    · rintro (hmem | hlock)
      · exact h.connection_of_upgrade ((hupgrade n).mpr hmem)
      · exact h.sound.of_held (mem_held_connection.mpr (.inl (hlocks'.symm ▸ hlock)))

/-- Two connections, of which the first is upgraded, when the server ends. -/
theorem left_behind_session :
    let actions : List OwnerAction := [.accept 7, .accept 8, .upgrade 0, .release 0, .release 1,
      .finish 0, .stop]
    ∃ s os, serverObjects.run {} actions = some (s, os)
      ∧ ∃ (xs : List Shared) (s' : ServerObjects) (os' : List Unit),
        serverObjects.run s (xs.map .destroy) = some (s', os')
        ∧ .connection 0 ∈ s'.alive ∧ .connection 1 ∉ s'.alive := by
  intro actions
  have hr : serverObjects.run {} actions = some (_, _) := rfl
  obtain ⟨⟨xs, s', os', hdestroy, hsettled⟩, hleft⟩ := left_behind hr (by decide +kernel)
  obtain ⟨-, hconnections⟩ := (hleft xs s' os' hdestroy).2 hsettled
  refine ⟨_, _, hr, xs, s', os', hdestroy, (hconnections 0).2.mpr (.inl (by decide)), fun h => ?_⟩
  exact absurd ((hconnections 1).2.mp h) (by decide +kernel)

end ServerObjects
