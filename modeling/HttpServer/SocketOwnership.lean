import HttpServer.ConnectionLife

/-!
# Who closes a descriptor

The connection remembers one descriptor, in `socket_fd_`. `Close`, a failing `Connect` and the
destructor close it and forget it; `Disconnect` keeps it, open, and makes a new `Connect`
legal, which writes its own over it. The old one is then lost: nobody knows its number, and it
is never closed.

That is the only way to lose one, and none is ever closed twice (`closed_once_iff`).
-/

/-! ## What a step does to the descriptors -/

/-- What becomes of the descriptors and of `socket_fd_` in a step: nothing, or a socket is
obtained and kept, or obtained and closed again, or the remembered one is closed. -/
inductive DescriptorMove (s : LifeRun) : LifeStep → List Descriptor → ℤ → Prop
  | same (a : LifeStep) (ha : ∀ fd result, a ≠ .connect (.ok fd) result
      ∨ s.life.conn.state ≠ .disconnected) :
    DescriptorMove s a s.life.descriptors s.life.conn.socketFd
  | opened (fd : ℕ) (hstate : s.life.conn.state = .disconnected)
    (hopen : ¬ IsOpenNumber s.life.descriptors fd) :
    DescriptorMove s (.connect (.ok fd) none) (⟨fd, 0⟩ :: s.life.descriptors) fd
  | refused (fd : ℕ) (e : SocketError) (hstate : s.life.conn.state = .disconnected)
    (hopen : ¬ IsOpenNumber s.life.descriptors fd) :
    DescriptorMove s (.connect (.ok fd) (some e)) (⟨fd, 1⟩ :: s.life.descriptors) (-1)
  | closed (hfd : 0 ≤ s.life.conn.socketFd) :
    DescriptorMove s .close (closeSocket s.life.descriptors s.life.conn.socketFd) (-1)

theorem closeSocket_cons_self (fd : ℕ) (closes : ℕ) (ds : List Descriptor) :
    closeSocket (⟨fd, closes⟩ :: ds) fd = ⟨fd, closes + 1⟩ :: ds := by
  rw [closeSocket, if_pos rfl]

/-- Closing another number leaves a descriptor alone. -/
theorem mem_closeSocket {d : Descriptor} {ds : List Descriptor} {fd : ℤ} (hmem : d ∈ ds)
    (hne : d.number ≠ fd) : d ∈ closeSocket ds fd := by
  induction ds with
  | nil => cases hmem
  | cons d' ds ih =>
    rw [closeSocket]
    rcases List.mem_cons.mp hmem with rfl | hmem
    · rw [if_neg hne]
      exact List.mem_cons_self
    · split
      · exact List.mem_cons_of_mem _ hmem
      · exact List.mem_cons_of_mem _ (ih hmem)

/-- **Every step is one of these moves.** -/
theorem LifeRun.perform_move {s : LifeRun} {a : LifeStep} (henabled : s.Enabled a) :
    DescriptorMove s a (s.perform a).1.life.descriptors
      (s.perform a).1.life.conn.socketFd := by
  cases a with
  | connect socket result =>
    show DescriptorMove s _ (s.connect socket result).1.life.descriptors
      (s.connect socket result).1.life.conn.socketFd
    unfold connect
    split
    · rename_i hstate
      exact .same _ fun _ _ => Or.inr hstate
    · rename_i hstate
      have hstate := not_not.mp hstate
      cases socket with
      | error e => exact .same _ fun _ _ => Or.inl (by simp)
      | ok fd =>
        have hfree := henabled.2 fd rfl hstate
        cases result with
        | none => exact .opened fd hstate hfree
        | some e =>
          show DescriptorMove s _ (closeSocket (⟨fd, 0⟩ :: s.life.descriptors) fd) (-1)
          rw [closeSocket_cons_self]
          exact .refused fd e hstate hfree
  | disconnect =>
    show DescriptorMove s _ s.disconnect.life.descriptors s.disconnect.life.conn.socketFd
    unfold disconnect
    split <;> exact .same _ fun _ _ => Or.inl (by simp)
  | close =>
    show DescriptorMove s _ s.close.life.descriptors s.close.life.conn.socketFd
    unfold close
    split
    · rename_i hfd
      show DescriptorMove s _ (closeSocket _ _) s.life.conn.close.socketFd
      rw [TCPConnection.close_eq hfd]
      exact .closed hfd
    · exact .same _ fun _ _ => Or.inl (by simp)
  | send data alloc io =>
    show DescriptorMove s _ s.life.descriptors (s.life.conn.send data alloc io).1.1.socketFd
    rw [TCPConnection.socketFd_send]
    exact .same _ fun _ _ => Or.inl (by simp)
  | proceed =>
    show DescriptorMove s _ (s.holder.elim s s.proceed).life.descriptors
      (s.holder.elim s s.proceed).life.conn.socketFd
    cases s.holder with
    | none => exact .same _ fun _ _ => Or.inl (by simp)
    | some stage => cases stage <;> exact .same _ fun _ _ => Or.inl (by simp)
  | readerTest i => exact .same _ fun _ _ => Or.inl (by simp)
  | readerRecv i result => exact .same _ fun _ _ => Or.inl (by simp)
  | readerTrigger i => exact .same _ fun _ _ => Or.inl (by simp)

/-! ## Owned and lost descriptors -/

/-- **Every descriptor but the remembered one has been closed**, once, and the remembered one
is the newest. -/
structure ConnectionLife.Balanced (c : ConnectionLife) : Prop where
  forgotten : c.conn.socketFd < 0 → ∀ d ∈ c.descriptors, d.closes = 1
  remembered : 0 ≤ c.conn.socketFd → ∃ fd older, c.conn.socketFd = (fd : ℕ)
    ∧ c.descriptors = ⟨fd, 0⟩ :: older ∧ ∀ d ∈ older, d.closes = 1

/-- **A descriptor is lost**: it is open, and not the remembered one. -/
def ConnectionLife.Lost (c : ConnectionLife) : Prop :=
  ∃ d ∈ c.descriptors, d.closes = 0 ∧ d.number ≠ c.conn.socketFd

/-- **Every descriptor has been closed exactly once.** -/
def ConnectionLife.ClosedOnce (c : ConnectionLife) : Prop := ∀ d ∈ c.descriptors, d.closes = 1

/-- **A `Connect` that gets a socket has forgotten the one before**: `socket_fd_` is negative. -/
def LifeRun.Forgotten (s : LifeRun) : LifeStep → Prop
  | .connect (.ok _) _ => s.life.conn.state = .disconnected → s.life.conn.socketFd < 0
  | _ => True

instance (s : LifeRun) : (a : LifeStep) → Decidable (s.Forgotten a)
  | .connect (.ok _) _ => inferInstanceAs (Decidable
      (s.life.conn.state = .disconnected → s.life.conn.socketFd < 0))
  | .connect (.error _) _ => inferInstanceAs (Decidable True)
  | .disconnect => inferInstanceAs (Decidable True)
  | .close => inferInstanceAs (Decidable True)
  | .send _ _ _ => inferInstanceAs (Decidable True)
  | .proceed => inferInstanceAs (Decidable True)
  | .readerTest _ => inferInstanceAs (Decidable True)
  | .readerRecv _ _ => inferInstanceAs (Decidable True)
  | .readerTrigger _ => inferInstanceAs (Decidable True)

instance : DecidablePred ConnectionLife.ClosedOnce := fun c =>
  inferInstanceAs (Decidable (∀ d ∈ c.descriptors, d.closes = 1))

theorem LifeRun.IsStart.balanced {s : LifeRun} (h : s.IsStart) : s.life.Balanced := by
  cases h with
  | ofAddress => exact ⟨fun _ d hd => (nomatch hd), fun h => absurd h (by decide)⟩
  | ofDescriptor fd =>
    exact ⟨fun h => absurd h (Int.not_lt.mpr (Int.natCast_nonneg fd)),
      fun _ => ⟨fd, [], rfl, rfl, fun d hd => nomatch hd⟩⟩

theorem LifeRun.exists_move {s : LifeRun} {a : LifeStep} {r : LifeRun × LifeReply}
    (hr : lifeCycle.step s a = some r) :
    ∃ ds n, r.1.life.descriptors = ds ∧ r.1.life.conn.socketFd = n ∧ DescriptorMove s a ds n := by
  obtain ⟨henabled, rfl⟩ := lifeCycle_step.mp hr
  exact ⟨_, _, rfl, rfl, perform_move henabled⟩

theorem LifeRun.Forgotten.balanced {s : LifeRun} {a : LifeStep} {r : LifeRun × LifeReply}
    (hc : s.Forgotten a) (h : s.life.Balanced) (hr : lifeCycle.step s a = some r) :
    r.1.life.Balanced := by
  obtain ⟨ds, n, hds, hfd, hmove⟩ := exists_move hr
  suffices hb : (n < 0 → ∀ d ∈ ds, d.closes = 1) ∧ (0 ≤ n → ∃ fd older, n = (fd : ℕ)
      ∧ ds = ⟨fd, 0⟩ :: older ∧ ∀ d ∈ older, d.closes = 1) by
    rw [← hds, ← hfd] at hb
    exact ⟨hb.1, hb.2⟩
  cases hmove with
  | same => exact ⟨h.forgotten, h.remembered⟩
  | opened fd hstate =>
    exact ⟨fun hneg => absurd hneg (Int.not_lt.mpr (Int.natCast_nonneg fd)),
      fun _ => ⟨fd, _, rfl, rfl, h.forgotten (hc hstate)⟩⟩
  | refused fd e hstate =>
    refine ⟨fun _ d hd => ?_, fun hpos => absurd hpos (by decide)⟩
    rcases List.mem_cons.mp hd with rfl | hd
    · rfl
    · exact h.forgotten (hc hstate) d hd
  | closed hpos =>
    obtain ⟨fd, older, hfd', hds', hold⟩ := h.remembered hpos
    refine ⟨fun _ => ?_, fun hpos' => absurd hpos' (by decide)⟩
    rw [hfd', hds', closeSocket_cons_self]
    intro d hd
    rcases List.mem_cons.mp hd with rfl | hd
    · rfl
    · exact hold d hd

/-- A `Connect` that has not forgotten the one before loses it, whether it succeeds or not. -/
theorem LifeRun.lost_of_not_forgotten {s : LifeRun} {a : LifeStep} {r : LifeRun × LifeReply}
    (h : s.life.Balanced) (hc : ¬ s.Forgotten a) (hr : lifeCycle.step s a = some r) :
    r.1.life.Lost := by
  obtain ⟨ds, n, hds, hfd, hmove⟩ := exists_move hr
  suffices hb : ∃ d ∈ ds, d.closes = 0 ∧ (d.number : ℤ) ≠ n by
    rwa [← hds, ← hfd] at hb
  -- the one before is the head of the list, and open
  have hopen : ∀ fd result, a = .connect (.ok fd) result → s.life.conn.state = .disconnected
      ∧ ∃ fd' older, s.life.conn.socketFd = (fd' : ℕ) ∧ s.life.descriptors = ⟨fd', 0⟩ :: older := by
    rintro fd result rfl
    obtain ⟨hstate, hpos⟩ := Classical.not_imp.mp hc
    obtain ⟨fd', older, hfd', hds', -⟩ := h.remembered (Int.not_lt.mp hpos)
    exact ⟨hstate, fd', older, hfd', hds'⟩
  cases hmove with
  | same _ ha =>
    exfalso
    apply hc
    unfold Forgotten
    split
    · rename_i fd result
      intro hstate
      rcases ha fd result with hne | hne
      · exact absurd rfl hne
      · exact absurd hstate hne
    · trivial
  | opened fd hstate hfree =>
    obtain ⟨-, fd', older, -, hds'⟩ := hopen fd none rfl
    have hmem : (⟨fd', 0⟩ : Descriptor) ∈ s.life.descriptors := by
      rw [hds']
      exact List.mem_cons_self
    refine ⟨⟨fd', 0⟩, List.mem_cons_of_mem _ hmem, rfl, fun heq => hfree ?_⟩
    exact ⟨⟨fd', 0⟩, hmem, Int.ofNat.inj heq, rfl⟩
  | refused fd e hstate hfree =>
    obtain ⟨-, fd', older, -, hds'⟩ := hopen fd (some e) rfl
    have hmem : (⟨fd', 0⟩ : Descriptor) ∈ s.life.descriptors := by
      rw [hds']
      exact List.mem_cons_self
    exact ⟨⟨fd', 0⟩, List.mem_cons_of_mem _ hmem, rfl,
      fun heq => absurd (heq ▸ Int.natCast_nonneg fd') (by decide)⟩
  | closed => exact absurd trivial hc

/-- What is lost stays lost. -/
theorem LifeRun.lost_step {s : LifeRun} {a : LifeStep} {r : LifeRun × LifeReply}
    (h : s.life.Lost) (hr : lifeCycle.step s a = some r) : r.1.life.Lost := by
  obtain ⟨ds, n, hds, hfd, hmove⟩ := exists_move hr
  suffices hb : ∃ d ∈ ds, d.closes = 0 ∧ (d.number : ℤ) ≠ n by
    rwa [← hds, ← hfd] at hb
  obtain ⟨d, hd, hcloses, hne⟩ := h
  have hneg : (d.number : ℤ) ≠ -1 := fun heq =>
    absurd (heq ▸ Int.natCast_nonneg d.number) (by decide)
  cases hmove with
  | same => exact ⟨d, hd, hcloses, hne⟩
  | opened fd hstate hfree =>
    exact ⟨d, List.mem_cons_of_mem _ hd, hcloses,
      fun heq => hfree ⟨d, hd, Int.ofNat.inj heq, hcloses⟩⟩
  | refused fd e => exact ⟨d, List.mem_cons_of_mem _ hd, hcloses, hneg⟩
  | closed => exact ⟨d, mem_closeSocket hd hne, hcloses, hneg⟩

/-! ## The destructor -/

theorem ConnectionLife.Balanced.closedOnce_destroy {c : ConnectionLife} (h : c.Balanced) :
    c.destroy.ClosedOnce := by
  unfold destroy
  split
  · rename_i hpos
    obtain ⟨fd, older, hfd, hds, hold⟩ := h.remembered hpos
    show ∀ d ∈ closeSocket c.descriptors c.conn.socketFd, d.closes = 1
    rw [hfd, hds, closeSocket_cons_self]
    intro d hd
    rcases List.mem_cons.mp hd with rfl | hd
    · rfl
    · exact hold d hd
  · rename_i hneg
    exact h.forgotten (Int.not_le.mp hneg)

theorem ConnectionLife.Lost.not_closedOnce_destroy {c : ConnectionLife} (h : c.Lost) :
    ¬ c.destroy.ClosedOnce := by
  obtain ⟨d, hd, hcloses, hne⟩ := h
  intro honce
  have hmem : d ∈ c.destroy.descriptors := by
    unfold destroy
    split
    · exact mem_closeSocket hd hne
    · exact hd
  have hone := honce d hmem
  rw [hcloses] at hone
  cases hone

/-- **When every descriptor is closed exactly once.** For a connection that is built either
way, any order of calls and of the steps of its readers, and any outcomes of `CreateSocket` and
`Connect`: when the destructor has run, each descriptor has been closed once, and none a second
time, exactly if no `Connect` got a socket while `socket_fd_` still held one. -/
theorem closed_once_iff {s t : LifeRun} {steps : List LifeStep} {replies : List LifeReply}
    (hs : s.IsStart) (hr : lifeCycle.run s steps = some (t, replies)) :
    t.life.destroy.ClosedOnce ↔ lifeCycle.Along LifeRun.Forgotten s steps := by
  rcases Machine.run_of_along (I := fun s => s.life.Balanced) (L := fun s => s.life.Lost)
    (fun _ _ _ h hc hr => hc.balanced h hr)
    (fun _ _ _ h hc hr => LifeRun.lost_of_not_forgotten h hc hr)
    (fun _ _ _ h hr => LifeRun.lost_step h hr) hs.balanced hr with ⟨halong, hb⟩ | ⟨hno, hlost⟩
  · exact iff_of_true hb.closedOnce_destroy halong
  · exact iff_of_false hlost.not_closedOnce_destroy hno

/-- A connection that is made, and closed. -/
theorem closed_once_closed :
    ConnectionLife.ClosedOnce (ConnectionLife.destroy ⟨⟨.closing, -1, {}, 0⟩, [⟨3, 1⟩], 1,
        [(1, .connected), (1, .closed)]⟩)
      ↔ lifeCycle.Along LifeRun.Forgotten { life := .ofAddress }
        [.connect (.ok 3) none, .proceed, .proceed, .close, .proceed] :=
  closed_once_iff (t := ⟨⟨⟨.closing, -1, {}, 0⟩, [⟨3, 1⟩], 1, [(1, .connected), (1, .closed)]⟩,
    none, [.test]⟩) .ofAddress rfl

/-- A connection that is made, disconnected and made again: the first descriptor is never
closed. -/
theorem not_closed_once_reconnected :
    (lifeCycle.run { life := .ofAddress } [.connect (.ok 3) none, .proceed, .proceed, .disconnect,
        .proceed, .proceed, .connect (.ok 4) none, .proceed, .proceed]).map
      (fun q => decide q.1.life.destroy.ClosedOnce) = some false := by
  decide +kernel
