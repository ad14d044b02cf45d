import HttpServer.ConnectionLife
import Mathlib.Logic.Function.Basic

/-!
# Callbacks that call back

`Connect`, `Disconnect`, `Close` and `Send` of `core/Tcp/tcp_connection.cpp` hold
`state_mutex_`, which is not recursive, from their first line to their last, and the first
three trigger an event in between. `TriggerEvent` calls the private callback and hands the event
to the dispatcher, which calls its subscribers at once unless it is asynchronous. So a
callback may run while the mutex is held, by the thread that it runs on.

A callback is a program: it calls methods of the connection one after another, and what it
calls next may depend on what it got. Each thread has a stack of programs that it runs and of
methods that it is in, and the threads take their steps in any order. A thread that calls one
of the four methods tries to lock the mutex, and never gets it if it has it already.
`no_relock_iff` says in which runs that does not happen.
-/

/-! ## Programs -/

/-- The methods of the connection that take `state_mutex_`, and all the others: `Receive`,
`Flush`, `SendAsync`, the getters and setters. -/
inductive Method
  | connect
  | disconnect
  | close
  | send (data : Bytes)
  | other
  deriving DecidableEq, Repr

/-- The method takes `state_mutex_`. -/
def Method.Locks : Method → Prop
  | .other => False
  | _ => True

instance : DecidablePred Method.Locks
  | .connect => inferInstanceAs (Decidable True)
  | .disconnect => inferInstanceAs (Decidable True)
  | .close => inferInstanceAs (Decidable True)
  | .send _ => inferInstanceAs (Decidable True)
  | .other => inferInstanceAs (Decidable False)

/-- **A program of calls**: it is finished, or calls a method and goes on with the reply. -/
inductive Program (ρ : Type)
  | done
  | call (m : Method) (next : ρ → Program ρ)

/-- The program never calls a method that takes the mutex, whatever the replies. -/
def Program.Quiet {ρ : Type} : Program ρ → Prop
  | .done => True
  | .call m next => ¬ m.Locks ∧ ∀ reply, (next reply).Quiet

/-! ## Who is notified -/

/-- `DefaultEventDispatcher`, as far as an event of the connection goes: filters, subscribers
and typed callbacks. -/
structure EventSubscribers (ρ : Type) where
  filters : List (ConnectionEvent → Bool) := []
  subscribers : List (ConnectionEvent → Program ρ) := []
  typedCallbacks : List (ConnectionEvent × Program ρ) := []
  asyncDispatch : Bool := false

/-- The callbacks of a connection and the subscribers of its dispatcher, if it has one. -/
structure Listeners (ρ : Type) where
  eventCallback : Option (ConnectionEvent → Program ρ) := none
  dispatcher : Option (EventSubscribers ρ) := none

/-- The task of `PublishEvent`: the subscribers, and the callbacks for the event. -/
def EventSubscribers.task {ρ : Type} (d : EventSubscribers ρ) (e : ConnectionEvent) :
    List (Program ρ) :=
  d.subscribers.map (fun subscriber => subscriber e)
    ++ (d.typedCallbacks.filter fun typed => typed.1 = e).map Prod.snd

/-- `PublishEvent`: what runs on the thread that publishes. With asynchronous dispatch the task
goes to the queue, and runs on another thread. -/
def EventSubscribers.publishEvent {ρ : Type} (d : EventSubscribers ρ) (e : ConnectionEvent) :
    List (Program ρ) :=
  if d.filters.all fun filter => filter e then
    if d.asyncDispatch then [] else d.task e
  else []

/-- `TriggerEvent`: what runs on the thread that triggers, in order. Without `SetConnection`,
which `init` calls, nobody is notified. -/
def Listeners.triggerEvent {ρ : Type} (l : Listeners ρ) (selfConnection : Bool)
    (e : ConnectionEvent) : List (Program ρ) :=
  if selfConnection then
    l.eventCallback.toList.map (fun callback => callback e)
      ++ l.dispatcher.elim [] fun d => d.publishEvent e
  else []

/-! ## The methods -/

/-- `TCPConnection`, as far as the methods look before they trigger: the state, the
descriptor, and whether `init` has been called. -/
structure GuardedConnection where
  state : ConnectionState
  socketFd : ℤ
  selfConnection : Bool
  deriving DecidableEq, Repr

/-- What the io handler answers to `Connect`: the descriptor of `CreateSocket`, and whether its
own `Connect` has no error. -/
structure ConnectAttempt where
  socket : Option ℕ := none
  connected : Bool := false
  deriving DecidableEq, Repr

/-- What a method does with the mutex in its hands: the connection at the point where it
triggers an event or returns, the event, and the state that it sets afterwards. -/
structure Entered where
  conn : GuardedConnection
  event : Option ConnectionEvent := none
  after : Option ConnectionState := none
  deriving DecidableEq, Repr

namespace GuardedConnection

variable (c : GuardedConnection)

/-- `Connect`. `init`, which it calls before it triggers, sets the connection of the event
manager. -/
def connect (attempt : ConnectAttempt) : Entered :=
  if c.state ≠ .disconnected then { conn := c }
  else
    match attempt.socket with
    | none => { conn := { c with state := .error } }
    | some fd =>
      if !attempt.connected then { conn := { c with socketFd := -1, state := .error } }
      else
        { conn := { state := .connected, socketFd := fd, selfConnection := true }
          event := some .connected }

/-- `Disconnect`. -/
def disconnect : Entered :=
  if c.state ≠ .connected then { conn := c }
  else
    { conn := { c with state := .disconnecting }
      event := some .disconnected
      after := some .disconnected }

/-- `Close`. -/
def close : Entered :=
  if 0 ≤ c.socketFd then
    { conn := { c with socketFd := -1, state := .closing }
      event := some .closed }
  else { conn := c }

/-- A method, from where it has the mutex. `Send` triggers nothing, and the others do not take
it. -/
def enter (attempt : ConnectAttempt) : Method → Entered
  | .connect => c.connect attempt
  | .disconnect => c.disconnect
  | .close => c.close
  | .send _ => { conn := c }
  | .other => { conn := c }

/-- What is left to do before the mutex is given back. -/
def leave (after : Option ConnectionState) : GuardedConnection :=
  { c with state := after.getD c.state }

end GuardedConnection

/-- What runs on the thread that is in the method, before it goes on. -/
def Entered.notified {ρ : Type} (r : Entered) (listeners : Listeners ρ) : List (Program ρ) :=
  r.event.elim [] fun e => listeners.triggerEvent r.conn.selfConnection e

/-! ## Threads -/

/-- What a thread is in the middle of. -/
inductive CallFrame (ρ : Type)
  /-- It runs a program. -/
  | program (p : Program ρ)
  /-- A program waits for the reply of the method that it has called. -/
  | waiting (next : ρ → Program ρ)
  /-- A method is at its first line, where it locks the mutex. -/
  | enter (m : Method)
  /-- A method has the mutex, and will set the state when those it notifies are through. -/
  | locked (after : Option ConnectionState)

/-- The frame of a method that has the mutex. -/
def CallFrame.isLocked {ρ : Type} : CallFrame ρ → Bool
  | .locked _ => true
  | _ => false

/-- A connection and the threads that call it: who has the mutex, and the stacks. -/
structure CallStacks (θ ρ : Type) where
  conn : GuardedConnection
  owner : Option θ := none
  stack : θ → List (CallFrame ρ) := fun _ => []

/-- The steps of a thread. A program is started on a thread that does nothing: by the user, by
the read thread for what it notifies without the mutex, or by a worker of the dispatcher. -/
inductive StackStep (θ ρ : Type)
  | start (t : θ) (p : Program ρ)
  | call (t : θ) (reply : ρ)
  | lock (t : θ) (attempt : ConnectAttempt) (listeners : Listeners ρ)
  | unlock (t : θ) (reply : ρ)
  | finish (t : θ)

namespace CallStacks

variable {θ ρ : Type} [DecidableEq θ] (s : CallStacks θ ρ)

/-- A thread gets another stack. -/
def set (t : θ) (frames : List (CallFrame ρ)) : CallStacks θ ρ :=
  { s with stack := Function.update s.stack t frames }

/-- **One step of a thread**, `none` if it is not the one that the thread can take. A method
that does not take the mutex replies at once; `lock` waits for the mutex to be free. -/
def perform : StackStep θ ρ → Option (CallStacks θ ρ)
  | .start t p =>
    match s.stack t with
    | [] => some (s.set t [.program p])
    | _ => none
  | .call t reply =>
    match s.stack t with
    | .program (.call m next) :: rest =>
      if m.Locks then some (s.set t (.enter m :: .waiting next :: rest))
      else some (s.set t (.program (next reply) :: rest))
    | _ => none
  | .lock t attempt listeners =>
    match s.stack t, s.owner with
    | .enter m :: rest, none =>
      let r := s.conn.enter attempt m
      some
        { s.set t ((r.notified listeners).map .program ++ .locked r.after :: rest) with
          conn := r.conn
          owner := some t }
    | _, _ => none
  | .unlock t reply =>
    match s.stack t with
    | .locked after :: .waiting next :: rest =>
      some
        { s.set t (.program (next reply) :: rest) with
          conn := s.conn.leave after
          owner := none }
    | _ => none
  | .finish t =>
    match s.stack t with
    | .program .done :: rest => some (s.set t rest)
    | _ => none

/-- **No thread tries to lock the mutex while it holds it.** -/
def NoRelock : Prop := ∀ t m rest, s.stack t = .enter m :: rest → s.owner ≠ some t

/-- No thread does anything, and the mutex is free. -/
def start (conn : GuardedConnection) : CallStacks θ ρ where
  conn := conn

end CallStacks

/-- The machine of the threads. -/
def callStacks (θ ρ : Type) [DecidableEq θ] : Machine (CallStacks θ ρ) (StackStep θ ρ) Unit where
  step s a := (s.perform a).map fun s' => (s', ())

theorem callStacks_step {θ ρ : Type} [DecidableEq θ] {s : CallStacks θ ρ} {a : StackStep θ ρ}
    {r : CallStacks θ ρ × Unit} :
    (callStacks θ ρ).step s a = some r ↔ s.perform a = some r.1 := by
  show (s.perform a).map _ = some r ↔ _
  rw [Option.map_eq_some_iff]
  exact ⟨fun ⟨s', h, he⟩ => he ▸ h, fun h => ⟨r.1, h, rfl⟩⟩

/-! ## Who has the mutex -/

namespace CallStacks

variable {θ ρ : Type} [DecidableEq θ]

/-- **The steps, one by one.** -/
inductive Step (s : CallStacks θ ρ) : StackStep θ ρ → CallStacks θ ρ → Prop
  | start {t : θ} {p : Program ρ} (h : s.stack t = []) : Step s (.start t p) (s.set t [.program p])
  | reply {t : θ} {reply : ρ} {m : Method} {next : ρ → Program ρ} {rest : List (CallFrame ρ)}
      (h : s.stack t = .program (.call m next) :: rest) (hm : ¬ m.Locks) :
      Step s (.call t reply) (s.set t (.program (next reply) :: rest))
  | enter {t : θ} {reply : ρ} {m : Method} {next : ρ → Program ρ} {rest : List (CallFrame ρ)}
      (h : s.stack t = .program (.call m next) :: rest) (hm : m.Locks) :
      Step s (.call t reply) (s.set t (.enter m :: .waiting next :: rest))
  | lock {t : θ} {attempt : ConnectAttempt} {listeners : Listeners ρ} {m : Method}
      {rest : List (CallFrame ρ)} (h : s.stack t = .enter m :: rest) (hfree : s.owner = none) :
      Step s (.lock t attempt listeners)
        { s.set t (((s.conn.enter attempt m).notified listeners).map .program
            ++ .locked (s.conn.enter attempt m).after :: rest) with
          conn := (s.conn.enter attempt m).conn
          owner := some t }
  | unlock {t : θ} {reply : ρ} {after : Option ConnectionState} {next : ρ → Program ρ}
      {rest : List (CallFrame ρ)} (h : s.stack t = .locked after :: .waiting next :: rest) :
      Step s (.unlock t reply)
        { s.set t (.program (next reply) :: rest) with
          conn := s.conn.leave after
          owner := none }
  | finish {t : θ} {rest : List (CallFrame ρ)} (h : s.stack t = .program .done :: rest) :
      Step s (.finish t) (s.set t rest)

variable {s s' : CallStacks θ ρ} {a : StackStep θ ρ}

theorem step_of_perform (h : s.perform a = some s') : Step s a s' := by
  cases a with
  | start t p =>
    rw [perform] at h
    split at h
    · rename_i hstack
      cases h
      exact .start hstack
    · cases h
  | call t reply =>
    rw [perform] at h
    split at h
    · rename_i m next rest hstack
      split at h
      · rename_i hm
        cases h
        exact .enter hstack hm
      · rename_i hm
        cases h
        exact .reply hstack hm
    · cases h
  | lock t attempt listeners =>
    rw [perform] at h
    split at h
    · rename_i m rest hstack hfree
      cases h
      exact .lock hstack hfree
    · cases h
  | unlock t reply =>
    rw [perform] at h
    split at h
    · rename_i after next rest hstack
      cases h
      exact .unlock hstack
    · cases h
  | finish t =>
    rw [perform] at h
    split at h
    · rename_i rest hstack
      cases h
      exact .finish hstack
    · cases h

/-- A step changes the stack of the thread that takes it. -/
theorem set_stack (t u : θ) (frames : List (CallFrame ρ)) :
    (s.set t frames).stack u = if u = t then frames else s.stack u :=
  Function.update_apply s.stack t frames u

/-- **The mutex and the stacks agree**: the thread that has it is in one method that has locked
it, no other thread is in any, and a method that is about to lock it is on top. -/
structure Inv (s : CallStacks θ ρ) : Prop where
  locked : ∀ t, (s.stack t).countP CallFrame.isLocked = if s.owner = some t then 1 else 0
  enter_top : ∀ t f rest, s.stack t = f :: rest → ∀ m, CallFrame.enter m ∉ rest

theorem inv_start (conn : GuardedConnection) : (start conn : CallStacks θ ρ).Inv :=
  ⟨fun _ => rfl, nofun⟩

/-- A thread has the mutex exactly if it is in a method that has locked it. -/
theorem Inv.owner_iff (h : s.Inv) (t : θ) :
    s.owner = some t ↔ ∃ f ∈ s.stack t, f.isLocked = true := by
  have hcount := h.locked t
  rw [← List.countP_pos_iff, hcount]
  split
  · rename_i howner
    exact iff_of_true howner Nat.one_pos
  · rename_i howner
    exact iff_of_false howner (Nat.lt_irrefl 0)

/-- One thread gets another stack, and the mutex another owner: it is right for the others if
nothing changes for them. -/
theorem Inv.update (h : s.Inv) {t : θ} {frames : List (CallFrame ρ)} {conn : GuardedConnection}
    {owner : Option θ} (hothers : ∀ u ≠ t, owner = some u ↔ s.owner = some u)
    (hcount : frames.countP CallFrame.isLocked = if owner = some t then 1 else 0)
    (htop : ∀ f rest, frames = f :: rest → ∀ m, CallFrame.enter m ∉ rest) :
    ({ s.set t frames with conn, owner } : CallStacks θ ρ).Inv := by
  refine ⟨fun u => ?_, fun u f rest hu m => ?_⟩
  · show ((s.set t frames).stack u).countP CallFrame.isLocked = if owner = some u then 1 else 0
    rw [set_stack]
    split
    · rename_i hut
      rw [hut, hcount]
    · rename_i hut
      rw [h.locked u]
      exact if_congr (hothers u hut).symm rfl rfl
  · replace hu : (s.set t frames).stack u = f :: rest := hu
    rw [set_stack] at hu
    split at hu
    · exact htop f rest hu m
    · exact h.enter_top u f rest hu m

theorem countP_map_program (ps : List (Program ρ)) :
    (ps.map CallFrame.program).countP CallFrame.isLocked = 0 := by
  rw [List.countP_eq_zero]
  intro f hmem
  obtain ⟨p, -, rfl⟩ := List.mem_map.mp hmem
  exact Bool.false_ne_true

/-- Those who are notified run programs; if nothing below is about to lock, nothing is. -/
theorem enter_not_mem_notified {ps : List (Program ρ)} {after : Option ConnectionState}
    {rest : List (CallFrame ρ)} (hrest : ∀ m, CallFrame.enter m ∉ rest) (m : Method) :
    CallFrame.enter m ∉ ps.map CallFrame.program ++ .locked after :: rest := by
  intro hmem
  rcases List.mem_append.mp hmem with hprogram | hbelow
  · obtain ⟨p, -, he⟩ := List.mem_map.mp hprogram
    cases he
  · rcases List.mem_cons.mp hbelow with he | hbelow
    · cases he
    · exact hrest m hbelow

theorem Step.inv (h : Step s a s') (hs : s.Inv) : s'.Inv := by
  cases h with
  | start h =>
    refine hs.update (fun _ _ => Iff.rfl) ?_ ?_
    · rw [← hs.locked, h]
      rfl
    · rintro f rest heq m hmem
      cases heq
      cases hmem
  | reply h hm =>
    refine hs.update (fun _ _ => Iff.rfl) ?_ ?_
    · rw [← hs.locked, h]
      rfl
    · rintro f rest heq m hmem
      cases heq
      exact hs.enter_top _ _ _ h m hmem
  | enter h hm =>
    refine hs.update (fun _ _ => Iff.rfl) ?_ ?_
    · rw [← hs.locked, h]
      rfl
    · rintro f rest heq m hmem
      cases heq
      rcases List.mem_cons.mp hmem with heq | hmem
      · cases heq
      · exact hs.enter_top _ _ _ h m hmem
  | @lock t attempt listeners m rest h hfree =>
    have hrest : rest.countP CallFrame.isLocked = 0 := by
      have hcount := hs.locked t
      rw [h, hfree, if_neg nofun] at hcount
      exact hcount
    refine hs.update (fun u hut => ?_) ?_ fun f tail heq m' hmem => ?_
    · rw [hfree]
      exact iff_of_false (fun he => hut (Option.some.inj he).symm) nofun
    · rw [List.countP_append, countP_map_program, List.countP_cons_of_pos rfl, hrest, if_pos rfl]
    · have hmem' : CallFrame.enter m' ∈ f :: tail := List.mem_cons_of_mem f hmem
      rw [← heq] at hmem'
      exact enter_not_mem_notified (hs.enter_top _ _ _ h) m' hmem'
  | @unlock t reply after next rest h =>
    have howner : s.owner = some t :=
      (hs.owner_iff t).mpr ⟨.locked after, h ▸ List.mem_cons_self, rfl⟩
    refine hs.update (fun u hut => ?_) ?_ fun f tail heq m' hmem => ?_
    · rw [howner]
      exact iff_of_false nofun fun he => hut (Option.some.inj he).symm
    · have hcount := hs.locked t
      rw [h, if_pos howner, List.countP_cons_of_pos rfl, Nat.add_eq_right] at hcount
      exact hcount
    · cases heq
      exact hs.enter_top _ _ _ h m' (List.mem_cons_of_mem _ hmem)
  | finish h =>
    refine hs.update (fun _ _ => Iff.rfl) ?_ ?_
    · rw [← hs.locked, h]
      rfl
    · rintro f rest heq m hmem
      refine hs.enter_top _ _ _ h m ?_
      rw [heq]
      exact List.mem_cons_of_mem _ hmem

/-! ## When a thread locks twice -/

/-- **A callback calls back**: a program that runs above a method that has locked the mutex
calls one of the methods that take it. -/
def Reenters (s : CallStacks θ ρ) : StackStep θ ρ → Prop
  | .call t _ => ∃ m next rest, s.stack t = .program (.call m next) :: rest ∧ m.Locks
      ∧ ∃ f ∈ rest, f.isLocked = true
  | _ => False

/-- A step in which no callback calls back leaves no thread that locks twice. -/
theorem Step.noRelock (h : Step s a s') (hs : s.Inv) (hno : s.NoRelock) (hc : ¬ s.Reenters a) :
    s'.NoRelock := by
  intro u m rest hu howner
  cases h with
  | start h =>
    rw [set_stack] at hu
    split at hu
    · cases hu
    · exact hno u m rest hu howner
  | @reply t reply m' next rest' h hm =>
    rw [set_stack] at hu
    split at hu
    · cases hu
    · exact hno u m rest hu howner
  | @enter t reply m' next rest' h hm =>
    rw [set_stack] at hu
    split at hu
    · rename_i hut
      -- the thread has the mutex, so it is in a method that has locked it
      obtain ⟨f, hmem, hlocked⟩ := (hs.owner_iff u).mp howner
      rw [hut, h] at hmem
      rcases List.mem_cons.mp hmem with rfl | hmem
      · cases hlocked
      · exact hc ⟨m', next, rest', h, hm, f, hmem, hlocked⟩
    · exact hno u m rest hu howner
  | @lock t attempt listeners m' rest' h hfree =>
    obtain rfl : t = u := Option.some.inj howner
    replace hu : (s.set t _).stack t = .enter m :: rest := hu
    rw [set_stack, if_pos rfl] at hu
    have hmem : CallFrame.enter m ∈ CallFrame.enter m :: rest := List.mem_cons_self
    rw [← hu] at hmem
    exact enter_not_mem_notified (hs.enter_top _ _ _ h) m hmem
  | unlock h => cases howner
  | @finish t rest' h =>
    rw [set_stack] at hu
    split at hu
    · rename_i hut
      refine hs.enter_top t _ _ h m ?_
      rw [hu]
      exact List.mem_cons_self
    · exact hno u m rest hu howner

/-- One in which a callback calls back leaves one. -/
theorem Step.not_noRelock (h : Step s a s') (hs : s.Inv) (hc : s.Reenters a) : ¬ s'.NoRelock := by
  cases h with
  | @enter t reply m next rest h hm =>
    obtain ⟨m', next', rest', h', -, f, hmem, hlocked⟩ := hc
    rw [h] at h'
    cases h'
    intro hno
    refine hno t m (.waiting next :: rest) ?_ ?_
    · rw [set_stack, if_pos rfl]
    · exact (hs.owner_iff t).mpr ⟨f, h ▸ List.mem_cons_of_mem _ hmem, hlocked⟩
  | @reply t reply m next rest h hm =>
    obtain ⟨m', next', rest', h', hm', -⟩ := hc
    rw [h] at h'
    cases h'
    exact absurd hm' hm
  | start => exact hc.elim
  | lock => exact hc.elim
  | unlock => exact hc.elim
  | finish => exact hc.elim

/-! ## Listeners that leave the mutex alone -/

/-- Nobody who is notified on the spot ever calls a method that takes the mutex. -/
def QuietListeners : StackStep θ ρ → Prop
  | .lock _ _ listeners => ∀ e, ∀ p ∈ listeners.triggerEvent true e, p.Quiet
  | _ => True

/-- Above a method that has locked the mutex there are quiet programs only. -/
def Calm : List (CallFrame ρ) → Prop
  | [] => True
  | f :: rest => ((∃ g ∈ rest, g.isLocked = true) → ∃ p, f = .program p ∧ p.Quiet) ∧ Calm rest

/-- Listeners that are quiet for a connection that is set are so in any case. -/
theorem quiet_of_mem_notified {r : Entered} {listeners : Listeners ρ}
    (h : ∀ e, ∀ p ∈ listeners.triggerEvent true e, p.Quiet) {p : Program ρ}
    (hp : p ∈ r.notified listeners) : p.Quiet := by
  unfold Entered.notified at hp
  cases hevent : r.event with
  | none =>
    rw [hevent] at hp
    exact absurd hp List.not_mem_nil
  | some e =>
    rw [hevent] at hp
    replace hp : p ∈ listeners.triggerEvent r.conn.selfConnection e := hp
    cases hself : r.conn.selfConnection with
    | true =>
      rw [hself] at hp
      exact h e p hp
    | false =>
      rw [hself] at hp
      exact absurd hp List.not_mem_nil

/-- Quiet programs on top of a calm stack. -/
theorem calm_map_append {ps : List (Program ρ)} (hps : ∀ p ∈ ps, p.Quiet)
    {rest : List (CallFrame ρ)} (hrest : Calm rest) : Calm (ps.map CallFrame.program ++ rest) := by
  induction ps with
  | nil => exact hrest
  | cons p ps ih =>
    refine ⟨fun _ => ⟨p, rfl, hps p List.mem_cons_self⟩, ih fun q hq => ?_⟩
    exact hps q (List.mem_cons_of_mem _ hq)

/-- Where no method has locked the mutex, there is nothing above one. -/
theorem calm_of_none {frames : List (CallFrame ρ)} (h : ∀ f ∈ frames, f.isLocked = false) :
    Calm frames := by
  induction frames with
  | nil => trivial
  | cons f rest ih =>
    refine ⟨?_, ih fun g hg => h g (List.mem_cons_of_mem _ hg)⟩
    rintro ⟨g, hg, hlocked⟩
    rw [h g (List.mem_cons_of_mem _ hg)] at hlocked
    cases hlocked

/-- Below the method that has locked the mutex there is no other one. -/
theorem Inv.below_locked (h : s.Inv) {t : θ} {above rest : List (CallFrame ρ)}
    (ht : s.stack t = above ++ rest)
    (hcount : s.owner = none ∨ 0 < above.countP CallFrame.isLocked) :
    ∀ f ∈ rest, f.isLocked = false := by
  have hlocked := h.locked t
  rw [ht, List.countP_append] at hlocked
  have hrest : rest.countP CallFrame.isLocked = 0 := by
    rcases hcount with howner | hpos
    · rw [howner, if_neg nofun] at hlocked
      omega
    · split at hlocked <;> omega
  intro f hmem
  exact Bool.eq_false_iff.mpr (List.countP_eq_zero.mp hrest f hmem)

/-- A calm stack among calm ones. -/
theorem calm_set (hcalm : ∀ t, Calm (s.stack t)) {t : θ} {frames : List (CallFrame ρ)}
    (hframes : Calm frames) (u : θ) : Calm ((s.set t frames).stack u) := by
  rw [set_stack]
  split
  · exact hframes
  · exact hcalm u

/-- With quiet listeners the stacks stay calm. -/
theorem Step.calm (h : Step s a s') (hs : s.Inv) (hcalm : ∀ t, Calm (s.stack t))
    (hquiet : QuietListeners a) (u : θ) : Calm (s'.stack u) := by
  cases h with
  | start h =>
    refine calm_set hcalm ?_ u
    exact ⟨fun ⟨g, hg, _⟩ => absurd hg List.not_mem_nil, trivial⟩
  | @reply t reply m next rest h hm =>
    refine calm_set hcalm ?_ u
    have hstack := hcalm t
    rw [h] at hstack
    refine ⟨fun hbelow => ?_, hstack.2⟩
    obtain ⟨p, hp, hquiet⟩ := hstack.1 hbelow
    cases hp
    exact ⟨next reply, rfl, hquiet.2 reply⟩
  | @enter t reply m next rest h hm =>
    have hstack := hcalm t
    rw [h] at hstack
    refine calm_set hcalm (calm_of_none fun f hmem => ?_) u
    rcases List.mem_cons.mp hmem with rfl | hmem
    · rfl
    · rcases List.mem_cons.mp hmem with rfl | hmem
      · rfl
      · -- a quiet program would not have made the call
        rw [Bool.eq_false_iff]
        intro hlocked
        obtain ⟨p, hp, hquiet⟩ := hstack.1 ⟨f, hmem, hlocked⟩
        cases hp
        exact hquiet.1 hm
  | @lock t attempt listeners m rest h hfree =>
    have hbelow : ∀ f ∈ rest, f.isLocked = false :=
      hs.below_locked (show s.stack t = [.enter m] ++ rest from h) (Or.inl hfree)
    refine calm_set hcalm ?_ u
    refine calm_map_append (fun p hp => quiet_of_mem_notified hquiet hp) ⟨?_, calm_of_none hbelow⟩
    rintro ⟨g, hg, hlocked⟩
    rw [hbelow g hg] at hlocked
    cases hlocked
  | @unlock t reply after next rest h =>
    have hbelow : ∀ f ∈ rest, f.isLocked = false :=
      hs.below_locked (show s.stack t = [.locked after, .waiting next] ++ rest from h)
        (Or.inr Nat.one_pos)
    refine calm_set hcalm (calm_of_none fun f hmem => ?_) u
    rcases List.mem_cons.mp hmem with rfl | hmem
    · rfl
    · exact hbelow f hmem
  | @finish t rest h =>
    have hstack := hcalm t
    rw [h] at hstack
    exact calm_set hcalm hstack.2 u

omit [DecidableEq θ] in
/-- In calm stacks no callback calls back. -/
theorem not_reenters_of_calm (hcalm : ∀ t, Calm (s.stack t)) (a : StackStep θ ρ) :
    ¬ s.Reenters a := by
  cases a with
  | call t reply =>
    rintro ⟨m, next, rest, h, hm, hbelow⟩
    have hcalm := hcalm t
    rw [h] at hcalm
    obtain ⟨p, hp, hquiet⟩ := hcalm.1 hbelow
    cases hp
    exact hquiet.1 hm
  | start t p => exact not_false
  | lock t attempt listeners => exact not_false
  | unlock t reply => exact not_false
  | finish t => exact not_false

end CallStacks

variable {θ ρ : Type} [DecidableEq θ]

/-- **No thread tries to lock the mutex while it holds it exactly if** no callback that runs
inside `Connect`, `Disconnect` or `Close` calls one of the methods that take it. -/
theorem no_relock_iff (conn : GuardedConnection) (steps : List (StackStep θ ρ)) :
    (callStacks θ ρ).Always CallStacks.NoRelock (.start conn) steps
      ↔ (callStacks θ ρ).Along (fun s a => ¬ s.Reenters a) (.start conn) steps := by
  refine Machine.always_iff_along (I := fun s : CallStacks θ ρ => s.Inv ∧ s.NoRelock)
    (fun s hs => hs.2) ?_ ?_ ⟨CallStacks.inv_start conn, nofun⟩
  · intro s a r hs hc hr
    have hstep := CallStacks.step_of_perform (callStacks_step.mp hr)
    exact ⟨hstep.inv hs.1, hstep.noRelock hs.1 hs.2 hc⟩
  · intro s a r hs hc hr
    have hstep := CallStacks.step_of_perform (callStacks_step.mp hr)
    exact hstep.not_noRelock hs.1 (Classical.not_not.mp hc)

/-- **Quiet listeners are enough**: if nobody who is notified on the spot ever calls a method that
takes the mutex, no thread locks it twice, in any order of steps. So it is with no private
callback and asynchronous dispatch. -/
theorem no_relock_of_quiet (conn : GuardedConnection) (steps : List (StackStep θ ρ))
    (hquiet : ∀ a ∈ steps, CallStacks.QuietListeners a) :
    (callStacks θ ρ).Always CallStacks.NoRelock (.start conn) steps := by
  rw [no_relock_iff]
  refine Machine.along_of_along
    (I := fun s : CallStacks θ ρ => s.Inv ∧ ∀ t, CallStacks.Calm (s.stack t)) ?_
    (fun s a r hs _ _ => CallStacks.not_reenters_of_calm hs.2 a)
    ⟨CallStacks.inv_start conn, fun _ => trivial⟩
    ((callStacks θ ρ).along_of_forall _ hquiet)
  intro s a r hs hc hr
  have hstep := CallStacks.step_of_perform (callStacks_step.mp hr)
  exact ⟨hstep.inv hs.1, hstep.calm hs.1 hs.2 hc⟩

/-- A subscriber that answers the end of the connection by closing it. -/
def closer : Listeners Unit where
  dispatcher := some { subscribers := [fun _ => .call .close fun _ => .done] }

/-- `Disconnect` notifies it with the mutex locked, and `Close` tries to lock it once more. -/
theorem relock_of_closer :
    ¬ (callStacks Unit Unit).Always CallStacks.NoRelock (.start ⟨.connected, 3, true⟩)
      [.start () (.call .disconnect fun _ => .done), .call () (), .lock () {} closer,
        .call () ()] := by
  intro h
  obtain ⟨-, h⟩ := h
  obtain ⟨-, h⟩ := h _ rfl
  obtain ⟨-, h⟩ := h _ rfl
  obtain ⟨-, h⟩ := h _ rfl
  exact h _ rfl () .close _ rfl rfl
