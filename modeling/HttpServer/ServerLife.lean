import HttpServer.SocketOwnership

/-!
# Starting and stopping the server

`Listen`, `Stop` and the destructor of `HttpServer` in `application/http/http_server.cpp`, which
one thread calls, and `acceptLoop`, which `Listen` starts in another one. The two share
`listen_fd_` and `running_`: the accept thread looks at them whenever it comes past, so the calls
are taken apart into what they do between two points where it can.

`Stop` waits for the accept thread before it closes the listening socket, and then the server can
listen again. `Listen` takes no notice of a server that is listening already. It writes a new
descriptor, or `-1`, over the one the accept thread works with, and if it gets as far as the new
thread, the old one is destroyed while it runs, which ends the program. This is the only way in
which a listening socket is lost (`ServerLife.sound_iff`).
-/

/-! ## One descriptor that is remembered -/

/-- **Only the remembered descriptor is open**, and it is the newest; all others have been closed
once. -/
structure OnlyOpen (fd : ℤ) (ds : List Descriptor) : Prop where
  forgotten : fd < 0 → ∀ d ∈ ds, d.closes = 1
  remembered : 0 ≤ fd → ∃ (n : ℕ) (older : List Descriptor), fd = n ∧ ds = ⟨n, 0⟩ :: older
    ∧ ∀ d ∈ older, d.closes = 1

theorem OnlyOpen.of_forgotten {ds : List Descriptor} (h : ∀ d ∈ ds, d.closes = 1) :
    OnlyOpen (-1) ds :=
  ⟨fun _ => h, fun hpos => absurd hpos (by decide)⟩

theorem OnlyOpen.opened {fd : ℤ} {ds : List Descriptor} (h : OnlyOpen fd ds) (hneg : fd < 0)
    (n : ℕ) : OnlyOpen n (⟨n, 0⟩ :: ds) where
  forgotten hn := absurd hn (Int.not_lt.mpr (Int.natCast_nonneg n))
  remembered _ := ⟨n, ds, rfl, rfl, h.forgotten hneg⟩

theorem OnlyOpen.closed {fd : ℤ} {ds : List Descriptor} (h : OnlyOpen fd ds) (hpos : 0 ≤ fd) :
    OnlyOpen (-1) (closeSocket ds fd) := by
  obtain ⟨n, older, rfl, rfl, hold⟩ := h.remembered hpos
  rw [closeSocket_cons_self]
  refine .of_forgotten fun d hd => ?_
  rcases List.mem_cons.mp hd with rfl | hd
  · rfl
  · exact hold d hd

/-- Where a descriptor is remembered, another one cannot be, and no number of it. -/
theorem OnlyOpen.not_of_ne {fd fd' : ℤ} {ds : List Descriptor} (h : OnlyOpen fd ds)
    (hpos : 0 ≤ fd) (hne : fd' ≠ fd) (new : List Descriptor) : ¬ OnlyOpen fd' (new ++ ds) := by
  intro h'
  obtain ⟨n, older, rfl, rfl, -⟩ := h.remembered hpos
  have hmem : (⟨n, 0⟩ : Descriptor) ∈ new ++ ⟨n, 0⟩ :: older := by simp
  by_cases hneg : fd' < 0
  · exact absurd (h'.forgotten hneg _ hmem) Nat.zero_ne_one
  · obtain ⟨m, older', rfl, hds, hold'⟩ := h'.remembered (Int.not_lt.mp hneg)
    rw [hds] at hmem
    rcases List.mem_cons.mp hmem with heq | hmem
    · cases heq
      exact hne rfl
    · exact absurd (hold' _ hmem) Nat.zero_ne_one

/-! ## The source -/

/-- Where the accept thread is in `acceptLoop`. -/
inductive AcceptPoint
  /-- Before it looks at `listen_fd_` for the first time. -/
  | start
  /-- At the test of the loop. -/
  | test
  /-- Before `select`. -/
  | select
  /-- Before `accept`, behind a `select` with a client. -/
  | accept
  | finished
  deriving DecidableEq, Repr

/-- Where the thread is that the server belongs to. -/
inductive OwnerPoint
  | idle
  /-- `createListeningSocket`, before `bind`. -/
  | bind
  /-- `createListeningSocket`, before `listen`. -/
  | listen
  /-- `Listen`, behind it. -/
  | launch
  /-- `Listen`, before the new thread. -/
  | thread
  /-- `Stop`, at `join`. -/
  | join
  /-- `Stop`, behind `join`. -/
  | close
  /-- Behind the destructor. -/
  | gone
  deriving DecidableEq, Repr

/-- `HttpServer`, as far as it listens, with its two threads. The accept thread is `none` if it is
not joinable. -/
structure ServerLife where
  listenFd : ℤ := -1
  running : Bool := false
  acceptThread : Option AcceptPoint := none
  owner : OwnerPoint := .idle
  destroying : Bool := false
  terminated : Bool := false
  descriptors : List Descriptor := []
  deriving DecidableEq, Repr

/-- The steps of the two threads, with the outcomes of the system calls. -/
inductive ServerStep
  /-- `Listen` is called, and `socket` gives a descriptor or fails. -/
  | listenCall (socket : Option ℕ)
  | bind (succeeds : Bool)
  | listen (succeeds : Bool)
  /-- `running_` is set. -/
  | launch
  /-- The new thread takes the place of the old one. -/
  | startThread
  /-- `Stop` is called, by the destructor or not. -/
  | stopCall (destroying : Bool)
  | join
  | close
  /-- The accept thread goes on; if it is in `select`, a client is there or not. -/
  | acceptThread (client : Bool)
  deriving DecidableEq, Repr

namespace ServerLife

variable (s : ServerLife)

/-- `bind` or `listen` has failed. -/
def giveUp : ServerLife :=
  { s with
    listenFd := -1, owner := .idle, descriptors := closeSocket s.descriptors s.listenFd }

/-- What the accept thread does next. -/
def acceptStep (client : Bool) : AcceptPoint → Option AcceptPoint
  | .start => some (if s.listenFd < 0 then .finished else .test)
  | .test => some (if s.running then .select else .finished)
  | .select => some (if client then .accept else .test)
  | .accept => some .test
  | .finished => none

/-- One step. -/
def step : ServerStep → Option ServerLife
  | .listenCall socket =>
    if s.owner ≠ .idle then none
    else
      match socket with
      | none => some { s with listenFd := -1 }
      | some n =>
        if IsOpenNumber s.descriptors n then none
        else some { s with
          listenFd := n, owner := .bind, descriptors := ⟨n, 0⟩ :: s.descriptors }
  | .bind succeeds =>
    if s.owner ≠ .bind then none
    else if succeeds then some { s with owner := .listen } else some s.giveUp
  | .listen succeeds =>
    if s.owner ≠ .listen then none
    else if succeeds then some { s with owner := .launch } else some s.giveUp
  | .launch =>
    if s.owner ≠ .launch then none else some { s with running := true, owner := .thread }
  | .startThread =>
    if s.owner ≠ .thread then none
    else if s.acceptThread.isSome then some { s with terminated := true, owner := .gone }
    else some { s with acceptThread := some .start, owner := .idle }
  | .stopCall destroying =>
    if s.owner ≠ .idle then none
    else some { s with running := false, owner := .join, destroying }
  | .join =>
    if s.owner ≠ .join then none
    else
      match s.acceptThread with
      | none => some { s with owner := .close }
      | some .finished => some { s with acceptThread := none, owner := .close }
      | some _ => none
  | .close =>
    if s.owner ≠ .close then none
    else
      let owner := if s.destroying then .gone else .idle
      if 0 ≤ s.listenFd then
        some { s with
          listenFd := -1, owner, descriptors := closeSocket s.descriptors s.listenFd }
      else some { s with owner }
  | .acceptThread client =>
    if s.terminated then none
    else (s.acceptThread.bind (s.acceptStep client)).map fun point =>
      { s with acceptThread := some point }

end ServerLife

/-- The server as a machine; its steps have no results. -/
def serverLife : Machine ServerLife ServerStep Unit := ⟨fun s a => (s.step a).map fun s => (s, ())⟩

namespace ServerLife

/-! ## What is asked of it -/

/-- The accept thread is about to use `listen_fd_`. -/
def UsesListenFd (s : ServerLife) : Prop :=
  s.acceptThread = some .select ∨ s.acceptThread = some .accept

/-- **The server is sound**: the program has not been ended, no listening socket but that of
`listen_fd_` is open, and the accept thread uses one that is. -/
structure Sound (s : ServerLife) : Prop where
  terminated_eq : s.terminated = false
  onlyOpen : OnlyOpen s.listenFd s.descriptors
  uses_open : s.UsesListenFd → 0 ≤ s.listenFd

/-- `Listen` is called when the server does not listen. -/
def NotListening (s : ServerLife) : ServerStep → Prop
  | .listenCall _ => s.listenFd < 0
  | _ => True

instance (s : ServerLife) : (a : ServerStep) → Decidable (s.NotListening a)
  | .listenCall _ => inferInstanceAs (Decidable (s.listenFd < 0))
  | .bind _ | .listen _ | .launch | .startThread | .stopCall _ | .join | .close
  | .acceptThread _ => inferInstanceAs (Decidable True)

/-- What a place of the owner says about the accept thread and `listen_fd_`: between two calls and
at `join` there is an accept thread exactly if there is a listening socket; from `socket` to the
new thread there is a listening socket and no accept thread, and behind `join` there is none. -/
def OwnerFits (s : ServerLife) : Prop :=
  match s.owner with
  | .idle => s.acceptThread.isSome = true ↔ 0 ≤ s.listenFd
  | .bind | .listen | .launch | .thread => s.acceptThread.isSome = false ∧ 0 ≤ s.listenFd
  | .join => (s.acceptThread.isSome = true ↔ 0 ≤ s.listenFd) ∧ s.running = false
  | .close => s.acceptThread.isSome = false
  | .gone => s.acceptThread.isSome = false ∧ s.listenFd < 0

structure Inv (s : ServerLife) : Prop extends s.Sound where
  owner : s.OwnerFits

/-! ## Steps -/

variable {s : ServerLife}

theorem inv_start : Inv {} where
  terminated_eq := rfl
  onlyOpen := .of_forgotten fun _ hd => absurd hd List.not_mem_nil
  uses_open h := by rcases h with h | h <;> cases h
  owner := iff_of_false Bool.false_ne_true (by decide)

/-- Where there is no accept thread, `listen_fd_` is not used. -/
theorem not_usesListenFd (h : s.acceptThread.isSome = false) : ¬ s.UsesListenFd := by
  rintro (hpoint | hpoint) <;> rw [hpoint] at h <;> cases h

/-- An owner between two calls that has no accept thread has no listening socket. -/
theorem isSome_iff_of_neg {thread : Option AcceptPoint} {fd : ℤ} (h : thread.isSome = false)
    (hneg : fd < 0) : thread.isSome = true ↔ 0 ≤ fd :=
  iff_of_false (Bool.eq_false_iff.mp h) (Int.not_le.mpr hneg)

/-- `bind` or `listen` fails. -/
theorem Inv.giveUp (h : s.Inv) (hnone : s.acceptThread.isSome = false) (hpos : 0 ≤ s.listenFd) :
    s.giveUp.Inv where
  terminated_eq := h.terminated_eq
  onlyOpen := h.onlyOpen.closed hpos
  uses_open huses := absurd huses (not_usesListenFd hnone)
  owner := isSome_iff_of_neg hnone (Int.negSucc_lt_zero 0)

/-- **The accept thread goes on.** -/
theorem Inv.acceptThread {client : Bool} {t : ServerLife} (h : s.Inv)
    (ht : s.step (.acceptThread client) = some t) : t.Inv := by
  obtain ⟨-, ht⟩ := Option.ite_none_left_eq_some.mp ht
  obtain ⟨next, hnext, rfl⟩ := Option.map_eq_some_iff.mp ht
  obtain ⟨point, hpoint, -⟩ := Option.bind_eq_some_iff.mp hnext
  have howner := h.owner
  have hfd : 0 ≤ s.listenFd := by
    unfold OwnerFits at howner
    rw [hpoint] at howner
    split at howner
    · exact howner.mp rfl
    · exact howner.2
    · exact howner.2
    · exact howner.2
    · exact howner.2
    · exact howner.1.mp rfl
    · cases howner
    · cases howner.1
  refine ⟨⟨h.terminated_eq, h.onlyOpen, fun _ => hfd⟩, ?_⟩
  unfold OwnerFits at howner ⊢
  rw [hpoint] at howner
  exact howner

/-- **A step that does not listen while it listens keeps the invariant.** -/
theorem Inv.step {a : ServerStep} {t : ServerLife} (h : s.Inv) (hc : s.NotListening a)
    (ht : s.step a = some t) : t.Inv := by
  have howner := h.owner
  unfold OwnerFits at howner
  cases a with
  | listenCall socket =>
    obtain ⟨hidle, ht⟩ := Option.ite_none_left_eq_some.mp ht
    rw [not_not.mp hidle] at howner
    have hneg : s.listenFd < 0 := hc
    have hnone : s.acceptThread.isSome = false :=
      Bool.eq_false_iff.mpr fun hsome => absurd (howner.mp hsome) (Int.not_le.mpr hneg)
    cases socket with
    | none =>
      cases ht
      refine ⟨⟨h.terminated_eq, .of_forgotten (h.onlyOpen.forgotten hneg),
        fun huses => absurd huses (not_usesListenFd hnone)⟩, ?_⟩
      unfold OwnerFits
      rw [not_not.mp hidle]
      exact isSome_iff_of_neg hnone (Int.negSucc_lt_zero 0)
    | some n =>
      obtain ⟨-, ht⟩ := Option.ite_none_left_eq_some.mp ht
      cases ht
      exact ⟨⟨h.terminated_eq, h.onlyOpen.opened hneg n, fun _ => Int.natCast_nonneg n⟩,
        hnone, Int.natCast_nonneg n⟩
  | bind succeeds =>
    obtain ⟨hbind, ht⟩ := Option.ite_none_left_eq_some.mp ht
    rw [not_not.mp hbind] at howner
    cases succeeds with
    | true =>
      cases ht
      exact ⟨⟨h.terminated_eq, h.onlyOpen, h.uses_open⟩, howner⟩
    | false =>
      cases ht
      exact h.giveUp howner.1 howner.2
  | listen succeeds =>
    obtain ⟨hlisten, ht⟩ := Option.ite_none_left_eq_some.mp ht
    rw [not_not.mp hlisten] at howner
    cases succeeds with
    | true =>
      cases ht
      exact ⟨⟨h.terminated_eq, h.onlyOpen, h.uses_open⟩, howner⟩
    | false =>
      cases ht
      exact h.giveUp howner.1 howner.2
  | launch =>
    obtain ⟨hlaunch, ht⟩ := Option.ite_none_left_eq_some.mp ht
    rw [not_not.mp hlaunch] at howner
    cases ht
    exact ⟨⟨h.terminated_eq, h.onlyOpen, h.uses_open⟩, howner⟩
  | startThread =>
    obtain ⟨hthread, ht⟩ := Option.ite_none_left_eq_some.mp ht
    rw [not_not.mp hthread] at howner
    rw [if_neg (Bool.eq_false_iff.mp howner.1)] at ht
    cases ht
    exact ⟨⟨h.terminated_eq, h.onlyOpen, fun _ => howner.2⟩, iff_of_true rfl howner.2⟩
  | stopCall destroying =>
    obtain ⟨hidle, ht⟩ := Option.ite_none_left_eq_some.mp ht
    rw [not_not.mp hidle] at howner
    cases ht
    exact ⟨⟨h.terminated_eq, h.onlyOpen, h.uses_open⟩, howner, rfl⟩
  | join =>
    obtain ⟨-, ht⟩ := Option.ite_none_left_eq_some.mp ht
    split at ht
    · rename_i hnone
      cases ht
      refine ⟨⟨h.terminated_eq, h.onlyOpen, h.uses_open⟩, ?_⟩
      show s.acceptThread.isSome = false
      rw [hnone]
      rfl
    · cases ht
      exact ⟨⟨h.terminated_eq, h.onlyOpen, fun huses => absurd huses (not_usesListenFd rfl)⟩, rfl⟩
    · cases ht
  | close =>
    obtain ⟨hclose, ht⟩ := Option.ite_none_left_eq_some.mp ht
    rw [not_not.mp hclose] at howner
    have hfits : ∀ t : ServerLife, t.acceptThread.isSome = false → t.listenFd < 0 →
        t.owner = (if s.destroying then .gone else .idle) → t.OwnerFits := by
      intro t hnone hneg heq
      unfold OwnerFits
      rw [heq]
      cases s.destroying with
      | true => exact ⟨hnone, hneg⟩
      | false => exact isSome_iff_of_neg hnone hneg
    split at ht
    · rename_i hpos
      cases ht
      exact ⟨⟨h.terminated_eq, h.onlyOpen.closed hpos,
        fun huses => absurd huses (not_usesListenFd howner)⟩,
        hfits _ howner (Int.negSucc_lt_zero 0) rfl⟩
    · rename_i hneg
      cases ht
      exact ⟨⟨h.terminated_eq, h.onlyOpen, h.uses_open⟩,
        hfits _ howner (Int.not_le.mp hneg) rfl⟩
  | acceptThread client => exact h.acceptThread ht

/-- **`Listen` of a server that listens loses its socket.** -/
theorem Inv.not_sound {a : ServerStep} {t : ServerLife} (h : s.Inv) (hc : ¬ s.NotListening a)
    (ht : s.step a = some t) : ¬ t.Sound := by
  cases a with
  | listenCall socket =>
    have hpos : 0 ≤ s.listenFd := Int.not_lt.mp hc
    obtain ⟨-, ht⟩ := Option.ite_none_left_eq_some.mp ht
    cases socket with
    | none =>
      cases ht
      have hne : (-1 : ℤ) ≠ s.listenFd := by omega
      exact fun hs => h.onlyOpen.not_of_ne hpos hne [] hs.onlyOpen
    | some n =>
      obtain ⟨hfree, ht⟩ := Option.ite_none_left_eq_some.mp ht
      cases ht
      refine fun hs => h.onlyOpen.not_of_ne hpos (fun heq => hfree ?_) [⟨n, 0⟩] hs.onlyOpen
      obtain ⟨m, older, hm, hds, -⟩ := h.onlyOpen.remembered hpos
      rw [hds]
      exact ⟨⟨m, 0⟩, List.mem_cons_self, Int.ofNat.inj (hm.symm.trans heq.symm), rfl⟩
  | _ => exact absurd trivial hc

/-! ## Runs -/

theorem serverLife_step {a : ServerStep} {r : ServerLife × Unit} :
    serverLife.step s a = some r ↔ s.step a = some r.1 := by
  constructor
  · intro h
    obtain ⟨t, ht, rfl⟩ := Option.map_eq_some_iff.mp h
    exact ht
  · intro h
    show (s.step a).map _ = _
    rw [h]
    rfl

theorem inv_of_along {steps : List ServerStep} {t : ServerLife} {replies : List Unit}
    (hc : serverLife.Along NotListening {} steps)
    (hr : serverLife.run {} steps = some (t, replies)) : t.Inv :=
  (Machine.always_of_along (fun _ h => h)
    (fun _ _ _ h hc hr => h.step hc (serverLife_step.mp hr)) inv_start hc).of_run hr

/-- **When the server is sound.** For every order of calls of `Listen` and `Stop`, with the
destructor or without, every outcome of the system calls and every interleaving with the accept
threads: the program is not ended by a thread that is destroyed while it runs, no listening socket
is lost and the accept thread works with the one there is, in every state of the run, exactly if
`Listen` is called only when the server does not listen. Behind the destructor every listening
socket has then been closed once. -/
theorem sound_iff {steps : List ServerStep} {t : ServerLife} {replies : List Unit}
    (hr : serverLife.run {} steps = some (t, replies)) :
    (serverLife.Always Sound {} steps ↔ serverLife.Along NotListening {} steps)
      ∧ (serverLife.Along NotListening {} steps → t.owner = .gone →
        ∀ d ∈ t.descriptors, d.closes = 1) := by
  refine ⟨Machine.always_iff_along (fun _ h => h.toSound)
    (fun _ _ _ h hc hr => h.step hc (serverLife_step.mp hr))
    (fun _ _ _ h hc hr => h.not_sound hc (serverLife_step.mp hr)) inv_start, fun hc hgone => ?_⟩
  have hinv := inv_of_along hc hr
  have howner := hinv.owner
  unfold OwnerFits at howner
  rw [hgone] at howner
  exact hinv.onlyOpen.forgotten howner.2

/-! ## `Stop` returns -/

/-- How many steps the accept thread takes at most until it has finished, when it is not to go
on. -/
def stepsLeft : Option AcceptPoint → ℕ
  | none | some .finished => 0
  | some .test => 1
  | some .start | some .accept => 2
  | some .select => 3

/-- `Stop` waits for the accept thread. -/
structure Joining (s : ServerLife) : Prop where
  owner_eq : s.owner = .join
  running_eq : s.running = false
  terminated_eq : s.terminated = false

/-- **The accept thread comes nearer to its end**, or `join` returns. -/
theorem Joining.step (h : s.Joining) (client : Bool) :
    (s.step .join).isSome = true
      ∨ ∃ t, s.step (.acceptThread client) = some t ∧ t.Joining
        ∧ stepsLeft t.acceptThread < stepsLeft s.acceptThread := by
  have hjoin : s.step .join = match s.acceptThread with
      | none => some { s with owner := .close }
      | some .finished => some { s with acceptThread := none, owner := .close }
      | some _ => none := if_neg (not_not.mpr h.owner_eq)
  have hstep : s.step (.acceptThread client)
      = (s.acceptThread.bind (s.acceptStep client)).map fun point =>
        { s with acceptThread := some point } :=
    if_neg (Bool.eq_false_iff.mp h.terminated_eq)
  -- where the thread gets to
  have hnext : ∀ point next, s.acceptThread = some point → s.acceptStep client point = some next →
      stepsLeft (some next) < stepsLeft (some point) →
      ∃ t, s.step (.acceptThread client) = some t ∧ t.Joining
        ∧ stepsLeft t.acceptThread < stepsLeft s.acceptThread := by
    intro point next hpoint hnext hlt
    rw [hpoint] at hstep ⊢
    rw [Option.bind_some, hnext, Option.map_some] at hstep
    exact ⟨_, hstep, ⟨h.owner_eq, h.running_eq, h.terminated_eq⟩, hlt⟩
  cases hpoint : s.acceptThread with
  | none =>
    rw [hpoint] at hjoin
    exact Or.inl (by rw [hjoin]; rfl)
  | some point =>
    rw [← hpoint]
    cases point with
    | start =>
      by_cases hneg : s.listenFd < 0
      · exact Or.inr (hnext _ .finished hpoint (congrArg some (if_pos hneg)) (by decide))
      · exact Or.inr (hnext _ .test hpoint (congrArg some (if_neg hneg)) (by decide))
    | test =>
      have hfinish : s.acceptStep client .test = some .finished :=
        congrArg some (if_neg (Bool.eq_false_iff.mp h.running_eq))
      exact Or.inr (hnext _ .finished hpoint hfinish (by decide))
    | select =>
      cases client with
      | true => exact Or.inr (hnext _ .accept hpoint rfl (by decide))
      | false => exact Or.inr (hnext _ .test hpoint rfl (by decide))
    | accept => exact Or.inr (hnext _ .test hpoint rfl (by decide))
    | finished =>
      rw [hpoint] at hjoin
      exact Or.inl (by rw [hjoin]; rfl)

/-- As many steps as are left get `Stop` past `join`. -/
theorem Joining.exists_run (h : s.Joining) (clients : List Bool)
    (hleft : stepsLeft s.acceptThread ≤ clients.length) :
    ∃ n t replies, serverLife.run s ((clients.take n).map .acceptThread) = some (t, replies)
      ∧ (t.step .join).isSome = true := by
  induction clients generalizing s with
  | nil =>
    rcases h.step false with hjoin | ⟨t, -, -, hlt⟩
    · exact ⟨0, s, [], rfl, hjoin⟩
    · exact absurd (Nat.lt_of_lt_of_le hlt hleft) (Nat.not_lt_zero _)
  | cons client clients ih =>
    rcases h.step client with hjoin | ⟨t, ht, hjoining, hlt⟩
    · exact ⟨0, s, [], rfl, hjoin⟩
    · obtain ⟨n, u, replies, hrun, hjoin⟩ :=
        ih hjoining (Nat.le_of_lt_succ (Nat.lt_of_lt_of_le hlt hleft))
      exact ⟨n + 1, u, () :: replies, Machine.run_cons_eq_some.mpr
        ⟨(t, ()), replies, serverLife_step.mpr ht, hrun, rfl⟩, hjoin⟩

/-- **`Stop` returns.** Wherever the accept thread is when `Stop` comes to `join`, in a run in which
`Listen` is called only when the server does not listen: `join` can return when the accept thread
has taken three steps at most, whatever comes out of `select` and `accept` there. -/
theorem stop_returns {steps : List ServerStep} {t : ServerLife} {replies : List Unit}
    (hr : serverLife.run {} steps = some (t, replies))
    (hc : serverLife.Along NotListening {} steps) (hjoin : t.owner = .join) (clients : List Bool)
    (hthree : clients.length = 3) :
    ∃ n u replies', serverLife.run t ((clients.take n).map .acceptThread) = some (u, replies')
      ∧ (u.step .join).isSome = true := by
  have hinv := inv_of_along hc hr
  have howner := hinv.owner
  unfold OwnerFits at howner
  rw [hjoin] at howner
  have hleft : stepsLeft t.acceptThread ≤ 3 := by
    unfold stepsLeft
    split <;> decide
  exact Joining.exists_run ⟨hjoin, howner.2, hinv.terminated_eq⟩ clients (hthree ▸ hleft)

/-- The server listens, takes a client and is stopped; then it listens again, on another port, and
is destroyed. -/
def listensTwice : List ServerStep :=
  [.listenCall (some 3), .bind true, .listen true, .launch, .startThread, .acceptThread false,
    .acceptThread false, .acceptThread true, .stopCall false, .acceptThread false,
    .acceptThread false, .join, .close,
    .listenCall (some 3), .bind true, .listen false, .stopCall true, .join, .close]

/-- Both listening sockets are closed. -/
theorem sound_listensTwice :
    (serverLife.Always Sound {} listensTwice ↔ serverLife.Along NotListening {} listensTwice)
      ∧ (serverLife.Along NotListening {} listensTwice → OwnerPoint.gone = .gone →
        ∀ d ∈ [(⟨3, 1⟩ : Descriptor), ⟨3, 1⟩], d.closes = 1) := by
  have hr : serverLife.run {} listensTwice
      = some ({ owner := .gone, destroying := true, descriptors := [⟨3, 1⟩, ⟨3, 1⟩] },
        List.replicate 19 ()) := by decide
  exact sound_iff hr

/-- `Stop` is called when the accept thread is in `select`. -/
theorem stop_returns_select :
    ∃ n u replies', serverLife.run
        { listenFd := 3, acceptThread := some .select, owner := .join, descriptors := [⟨3, 0⟩] }
        (([true, false, false].take n).map .acceptThread) = some (u, replies')
      ∧ (u.step .join).isSome = true := by
  have hr : serverLife.run {} (listensTwice.take 7 ++ [.stopCall false]) = some
      ({ listenFd := 3, acceptThread := some .select, owner := .join, descriptors := [⟨3, 0⟩] },
        List.replicate 8 ()) := by decide
  exact stop_returns hr (by decide) rfl [true, false, false] rfl

end ServerLife
