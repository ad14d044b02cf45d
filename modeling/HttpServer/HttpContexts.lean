import HttpServer.Machine
import HttpServer.ParseHttpRequest
import Mathlib.Data.Finmap
import Mathlib.Data.UInt

/-!
# The contexts of the HTTP handler and their clean-up

`contexts_` of `HttpProtocolHandler` has a context for each connection that data have arrived
on. `OnData` takes a reference out of the map under the lock and then works on the context
without it. `CleanupTimeoutConnections` makes a list of the contexts that have been idle for
too long under the lock, lets go of it, and removes what is on the list, one id at a time.

Between the list and the removal data may arrive. The removal does not look again, so what has
arrived is thrown away with the context; and where `OnData` has its reference already, that is
left dangling. `cleanup_erases_idle_iff` says when every context that is removed has been idle
for too long at that very moment, and nothing is lost of a connection that is not.
-/

/-- `contexts_`. -/
abbrev HttpContexts := Finmap fun _ : UInt64 => ConnectionHttpContext

namespace HttpContexts

variable (contexts : HttpContexts)

/-! ## The source -/

/-- `GetContext`: the map, which has an entry for the id now. -/
def getContext (connId : UInt64) : HttpContexts :=
  match contexts.lookup connId with
  | some _ => contexts
  | none => contexts.insert connId {}

/-- `RemoveContext`. -/
def removeContext (connId : UInt64) : HttpContexts := contexts.erase connId

/-- What is done through the reference that `GetContext` returned. If the entry has been
removed in the meantime, there is nothing of it in the map any more. -/
def modifyContext (connId : UInt64) (f : ConnectionHttpContext → ConnectionHttpContext) :
    HttpContexts :=
  match contexts.lookup connId with
  | some ctx => contexts.insert connId (f ctx)
  | none => contexts

/-- The context has been idle for longer than `request_timeout_`. -/
def TimedOut (requestTimeout now : ℕ) (ctx : ConnectionHttpContext) : Prop :=
  requestTimeout < now - ctx.lastActivity

instance (requestTimeout now : ℕ) : DecidablePred (TimedOut requestTimeout now) := fun _ =>
  inferInstanceAs (Decidable (_ < _))

/-! ## What is in the map -/

variable {contexts} {id id' : UInt64}

@[simp] theorem lookup_getContext (h : id' ≠ id) :
    (contexts.getContext id).lookup id' = contexts.lookup id' := by
  unfold getContext
  split
  · rfl
  · exact Finmap.lookup_insert_of_ne _ h

theorem lookup_getContext_self :
    (contexts.getContext id).lookup id = some ((contexts.lookup id).getD {}) := by
  unfold getContext
  cases hc : contexts.lookup id with
  | some ctx => exact hc
  | none => exact Finmap.lookup_insert _

@[simp] theorem lookup_removeContext (h : id' ≠ id) :
    (contexts.removeContext id).lookup id' = contexts.lookup id' :=
  Finmap.lookup_erase_ne h

@[simp] theorem lookup_removeContext_self : (contexts.removeContext id).lookup id = none :=
  Finmap.lookup_erase _ _

@[simp] theorem lookup_modifyContext (h : id' ≠ id)
    (f : ConnectionHttpContext → ConnectionHttpContext) :
    (contexts.modifyContext id f).lookup id' = contexts.lookup id' := by
  unfold modifyContext
  split
  · exact Finmap.lookup_insert_of_ne _ h
  · rfl

theorem lookup_modifyContext_self (f : ConnectionHttpContext → ConnectionHttpContext) :
    (contexts.modifyContext id f).lookup id = (contexts.lookup id).map f := by
  unfold modifyContext
  cases hc : contexts.lookup id with
  | some ctx => exact Finmap.lookup_insert _
  | none => exact hc

end HttpContexts

/-! ## The clean-up -/

/-- Where the clean-up thread is: between two rounds, with the time it has looked up, or with
what is left of its list. -/
inductive CleanupPoint
  | idle
  | timed (now : ℕ)
  | removing (timeoutConns : List UInt64)
  deriving DecidableEq

/-- Where the call of `OnData` of a connection is: there is none, or it has its reference, or the
data are in the buffer. -/
inductive OnDataPoint
  | idle
  | entered
  | working
  deriving DecidableEq

/-- The contexts, a clock, the clean-up thread and the calls of `OnData`, of which a connection has
one at a time; when `OnData` last refreshed a context since the list was made, and what has been
received on each connection and neither parsed nor dropped for being idle. -/
structure CleanupRun where
  contexts : HttpContexts := ∅
  clock : ℕ := 0
  point : CleanupPoint := .idle
  onData : UInt64 → OnDataPoint := fun _ => .idle
  refreshed : UInt64 → Option ℕ := fun _ => none
  unparsed : UInt64 → Bytes := fun _ => []

/-- The steps of the clock, of the calls of `OnData`, and of the clean-up thread. -/
inductive CleanupStep
  | tick (n : ℕ)
  /-- `OnData`: `GetContext` -/
  | getContext (connId : UInt64)
  /-- `OnData`: `last_activity` is set, and the data are appended. -/
  | refresh (connId : UInt64) (data : Bytes)
  /-- `OnData`: what parsing leaves in the context -/
  | parse (connId : UInt64) (buffer : Bytes) (isKeepAlive : Bool)
  /-- `OnData` is over, having returned or thrown. -/
  | leave (connId : UInt64)
  /-- `OnData`: `RemoveContext`, which is the last it does -/
  | removeContext (connId : UInt64)
  /-- `CleanupTimeoutConnections`: the time is looked up. -/
  | cleanupNow
  /-- `CleanupTimeoutConnections`: the list, in the order of the map -/
  | cleanupCollect (timeoutConns : List UInt64)
  /-- `CleanupTimeoutConnections`: the next of the list, or the end of it -/
  | cleanupRemove

namespace CleanupRun

variable (requestTimeout : ℕ) (s : CleanupRun)

/-- The ids whose contexts have been idle for too long at a time. -/
def expired (now : ℕ) : Finset UInt64 :=
  s.contexts.keys.filter fun id =>
    ∃ ctx ∈ s.contexts.lookup id, HttpContexts.TimedOut requestTimeout now ctx

/-- The connection is active: its data are being handled, or its context has not been idle for too
long. -/
def Active (connId : UInt64) : Prop :=
  s.onData connId ≠ .idle
    ∨ ∃ ctx ∈ s.contexts.lookup connId, ¬ HttpContexts.TimedOut requestTimeout s.clock ctx

instance (connId : UInt64) : Decidable (s.Active requestTimeout connId) :=
  inferInstanceAs (Decidable (_ ∨ _))

/-- One step. The list names each of the ids once, in an order of the map's own. -/
def step : CleanupStep → Option CleanupRun
  | .tick n => some { s with clock := s.clock + n }
  | .getContext connId =>
    if s.onData connId = .idle then
      some { s with
        contexts := s.contexts.getContext connId
        onData := Function.update s.onData connId .entered }
    else none
  | .refresh connId data =>
    if s.onData connId = .entered then
      some { s with
        contexts := s.contexts.modifyContext connId fun ctx =>
          { ctx with lastActivity := s.clock, buffer := ctx.buffer ++ data }
        onData := Function.update s.onData connId .working
        refreshed :=
          if s.contexts.lookup connId = none then s.refreshed
          else Function.update s.refreshed connId (some s.clock)
        unparsed := Function.update s.unparsed connId (s.unparsed connId ++ data) }
    else none
  | .parse connId buffer isKeepAlive =>
    if s.onData connId = .working then
      some { s with
        contexts := s.contexts.modifyContext connId fun ctx => { ctx with buffer, isKeepAlive }
        unparsed := Function.update s.unparsed connId buffer }
    else none
  | .leave connId =>
    if s.onData connId = .working then
      some { s with onData := Function.update s.onData connId .idle }
    else none
  | .removeContext connId =>
    if s.onData connId = .working then
      some { s with
        contexts := s.contexts.removeContext connId
        onData := Function.update s.onData connId .idle
        refreshed := Function.update s.refreshed connId none
        unparsed := Function.update s.unparsed connId [] }
    else none
  | .cleanupNow =>
    match s.point with
    | .idle => some { s with point := .timed s.clock }
    | _ => none
  | .cleanupCollect timeoutConns =>
    match s.point with
    | .timed now =>
      if timeoutConns.Nodup ∧ timeoutConns.toFinset = s.expired requestTimeout now then
        some { s with point := .removing timeoutConns, refreshed := fun _ => none }
      else none
    | _ => none
  | .cleanupRemove =>
    match s.point with
    | .removing [] => some { s with point := .idle }
    | .removing (connId :: timeoutConns) =>
      some { s with
        contexts := s.contexts.removeContext connId
        point := .removing timeoutConns
        refreshed := Function.update s.refreshed connId none
        unparsed :=
          if s.Active requestTimeout connId then s.unparsed
          else Function.update s.unparsed connId [] }
    | _ => none

end CleanupRun

/-- The handler's threads at the contexts. -/
def cleanup (requestTimeout : ℕ) : Machine CleanupRun CleanupStep Unit :=
  ⟨fun s a => (s.step requestTimeout a).map fun s' => (s', ())⟩

/-- **Only an idle context is erased**: if the clean-up removes a context, it has been idle for
longer than `request_timeout_` at that moment. -/
def ErasesIdle (requestTimeout : ℕ) (s : CleanupRun) : CleanupStep → Prop
  | .cleanupRemove => ∀ connId rest, s.point = .removing (connId :: rest) →
    ∀ ctx ∈ s.contexts.lookup connId, HttpContexts.TimedOut requestTimeout s.clock ctx
  | _ => True

/-- **Nothing of a connection is discarded** before it is idle: a call of `OnData` has the context
that it works on, and the buffer of a connection holds what has been received and not parsed. -/
structure CleanupRun.KeepsActive (s : CleanupRun) : Prop where
  has_context : ∀ id, s.onData id ≠ .idle → s.contexts.lookup id ≠ none
  buffer_eq : ∀ id, ((s.contexts.lookup id).map ConnectionHttpContext.buffer).getD []
    = s.unparsed id

/-- **No context is refreshed in the window**: when the clean-up comes to an id, `OnData` has
not refreshed its context since the list was made, or not for longer than `request_timeout_`. -/
def NotRefreshed (requestTimeout : ℕ) (s : CleanupRun) : CleanupStep → Prop
  | .cleanupRemove => ∀ connId rest, s.point = .removing (connId :: rest) →
    ∀ time ∈ s.refreshed connId, requestTimeout < s.clock - time
  | _ => True

/-- **No call is in the middle of it**: when the clean-up comes to an id, `OnData` is not between
its `GetContext` for the connection and its end. -/
def NotEntered (s : CleanupRun) : CleanupStep → Prop
  | .cleanupRemove => ∀ connId rest, s.point = .removing (connId :: rest) →
    s.onData connId = .idle
  | _ => True

/-! ## One step -/

/-- **What is known of a context on the list**: as long as it has not been refreshed it has been
idle for too long, and if it has been, it is still there with the time of that. -/
structure CleanupRun.Listed (requestTimeout : ℕ) (s : CleanupRun) (id : UInt64) : Prop where
  lt_clock : requestTimeout < s.clock
  untouched : s.refreshed id = none →
    ∀ ctx ∈ s.contexts.lookup id, HttpContexts.TimedOut requestTimeout s.clock ctx
  touched : ∀ time ∈ s.refreshed id, ∃ ctx ∈ s.contexts.lookup id, ctx.lastActivity = time

namespace CleanupRun.Listed

variable {requestTimeout : ℕ} {s t : CleanupRun} {id : UInt64}

/-- What a step does to one id is all that matters. -/
theorem of_eq (h : s.Listed requestTimeout id) (hclock : s.clock ≤ t.clock)
    (hlookup : t.contexts.lookup id = s.contexts.lookup id)
    (hrefreshed : t.refreshed id = s.refreshed id) : t.Listed requestTimeout id := by
  refine ⟨Nat.lt_of_lt_of_le h.lt_clock hclock, ?_, ?_⟩
  · rw [hlookup, hrefreshed]
    exact fun hnone ctx hctx => Nat.lt_of_lt_of_le (h.untouched hnone ctx hctx)
      (Nat.sub_le_sub_right hclock _)
  · rw [hlookup, hrefreshed]
    exact h.touched

/-- What is put on the list has been idle for too long. -/
theorem of_expired {now : ℕ} (hnow : now ≤ s.clock) (hmem : id ∈ s.expired requestTimeout now)
    (point : CleanupPoint) :
    ({ s with point, refreshed := fun _ => none } : CleanupRun).Listed requestTimeout id := by
  obtain ⟨-, ctx, hctx, hout⟩ := Finset.mem_filter.mp hmem
  have hclock : requestTimeout < s.clock - ctx.lastActivity :=
    Nat.lt_of_lt_of_le hout (Nat.sub_le_sub_right hnow _)
  refine ⟨Nat.lt_of_lt_of_le hclock (Nat.sub_le _ _), fun _ ctx' hctx' => ?_,
    fun time htime => nomatch htime⟩
  obtain rfl : ctx = ctx' := Option.some.inj (hctx.symm.trans hctx')
  exact hclock

/-- A context that is removed has not been refreshed. -/
theorem of_removed (hclock : requestTimeout < t.clock) (hlookup : t.contexts.lookup id = none)
    (hrefreshed : t.refreshed id = none) : t.Listed requestTimeout id := by
  refine ⟨hclock, ?_, ?_⟩
  · rw [hlookup]
    exact fun _ ctx hctx => nomatch hctx
  · rw [hrefreshed]
    exact fun time htime => nomatch htime

/-- **Removing what is on the list removes what is idle exactly if it has not been refreshed.** -/
theorem erasesIdle_iff (h : s.Listed requestTimeout id) :
    (∀ ctx ∈ s.contexts.lookup id, HttpContexts.TimedOut requestTimeout s.clock ctx)
      ↔ ∀ time ∈ s.refreshed id, requestTimeout < s.clock - time := by
  constructor
  · intro hidle time htime
    obtain ⟨ctx, hctx, rfl⟩ := h.touched time htime
    exact hidle ctx hctx
  · intro hno ctx hctx
    cases hrefreshed : s.refreshed id with
    | none => exact h.untouched hrefreshed ctx hctx
    | some time =>
      obtain ⟨ctx', hctx', rfl⟩ := h.touched time hrefreshed
      obtain rfl : ctx' = ctx := Option.some.inj (hctx'.symm.trans hctx)
      exact hno _ hrefreshed

/-- `OnData` looks up a context, or begins one. -/
theorem getContext (h : s.Listed requestTimeout id) {connId : UInt64}
    (hstep : s.step requestTimeout (.getContext connId) = some t) :
    t.Listed requestTimeout id := by
  obtain ⟨-, ⟨⟩⟩ := Option.ite_none_right_eq_some.mp hstep
  by_cases hid : id = connId
  · subst hid
    have hlookup := @HttpContexts.lookup_getContext_self s.contexts id
    refine ⟨h.lt_clock, fun hnone ctx hctx => ?_, fun time htime => ?_⟩
    · obtain rfl : _ = ctx := Option.some.inj (hlookup.symm.trans hctx)
      cases hold : s.contexts.lookup id with
      | some ctx => exact h.untouched hnone ctx hold
      | none => exact h.lt_clock
    · obtain ⟨ctx, hctx, htimes⟩ := h.touched time htime
      refine ⟨ctx, ?_, htimes⟩
      rw [hctx] at hlookup
      exact hlookup
  · exact h.of_eq (Nat.le_refl _) (HttpContexts.lookup_getContext hid) rfl

/-- `OnData` changes a context and leaves its time as it is. -/
theorem parse (h : s.Listed requestTimeout id) {connId : UInt64} {buffer : Bytes}
    {isKeepAlive : Bool}
    (hstep : s.step requestTimeout (.parse connId buffer isKeepAlive) = some t) :
    t.Listed requestTimeout id := by
  obtain ⟨-, ⟨⟩⟩ := Option.ite_none_right_eq_some.mp hstep
  by_cases hid : id = connId
  · subst hid
    have hlookup := @HttpContexts.lookup_modifyContext_self s.contexts id
      fun ctx => { ctx with buffer, isKeepAlive }
    refine ⟨h.lt_clock, fun hnone ctx hctx => ?_, fun time htime => ?_⟩
    · obtain ⟨ctx', hctx', rfl⟩ := Option.map_eq_some_iff.mp (hlookup.symm.trans hctx)
      exact h.untouched hnone ctx' hctx'
    · obtain ⟨ctx, hctx, htimes⟩ := h.touched time htime
      refine ⟨{ ctx with buffer, isKeepAlive }, ?_, htimes⟩
      rw [hctx] at hlookup
      exact hlookup
  · exact h.of_eq (Nat.le_refl _) (HttpContexts.lookup_modifyContext hid _) rfl

/-- `OnData` refreshes a context. -/
theorem refresh (h : s.Listed requestTimeout id) {connId : UInt64} {data : Bytes}
    (hstep : s.step requestTimeout (.refresh connId data) = some t) :
    t.Listed requestTimeout id := by
  obtain ⟨-, ⟨⟩⟩ := Option.ite_none_right_eq_some.mp hstep
  by_cases hid : id = connId
  · subst hid
    have hlookup := @HttpContexts.lookup_modifyContext_self s.contexts id
      fun ctx => { ctx with lastActivity := s.clock, buffer := ctx.buffer ++ data }
    cases hold : s.contexts.lookup id with
    | none =>
      rw [if_pos rfl]
      refine h.of_eq (Nat.le_refl _) ?_ rfl
      rw [hold] at hlookup
      exact hlookup.trans hold.symm
    | some ctx =>
      rw [hold] at hlookup
      have hrefreshed : Function.update s.refreshed id (some s.clock) id = some s.clock :=
        Function.update_self _ _ _
      rw [if_neg (Option.some_ne_none ctx)]
      refine ⟨h.lt_clock, fun hnone => ?_, fun time htime => ?_⟩
      · cases hrefreshed.symm.trans hnone
      · obtain rfl : s.clock = time := Option.some.inj (hrefreshed.symm.trans htime)
        exact ⟨_, hlookup, rfl⟩
  · refine h.of_eq (Nat.le_refl _) (HttpContexts.lookup_modifyContext hid _) ?_
    dsimp only
    split
    · rfl
    · exact Function.update_of_ne hid _ _

/-- A context is removed. -/
theorem removeContext (h : s.Listed requestTimeout id) {connId : UInt64}
    (hclock : t.clock = s.clock) (hcontexts : t.contexts = s.contexts.removeContext connId)
    (hrefreshed : t.refreshed = Function.update s.refreshed connId none) :
    t.Listed requestTimeout id := by
  by_cases hid : id = connId
  · subst hid
    refine .of_removed (hclock ▸ h.lt_clock) ?_ ?_
    · rw [hcontexts, HttpContexts.lookup_removeContext_self]
    · rw [hrefreshed, Function.update_self]
  · refine h.of_eq (Nat.le_of_eq hclock.symm) ?_ ?_
    · rw [hcontexts, HttpContexts.lookup_removeContext hid]
    · rw [hrefreshed, Function.update_of_ne hid]

end CleanupRun.Listed

/-- **What every step keeps**: the time the clean-up has looked up is not in the future, and
what is on its list is known. -/
structure CleanupRun.Inv (requestTimeout : ℕ) (s : CleanupRun) : Prop where
  now_le : ∀ now, s.point = .timed now → now ≤ s.clock
  listed : ∀ timeoutConns, s.point = .removing timeoutConns →
    ∀ id ∈ timeoutConns, s.Listed requestTimeout id

namespace CleanupRun.Inv

variable {requestTimeout : ℕ} {s t : CleanupRun}

theorem step (h : s.Inv requestTimeout) {a : CleanupStep}
    (hstep : s.step requestTimeout a = some t) : t.Inv requestTimeout := by
  cases a with
  | tick n =>
    cases hstep
    exact ⟨fun now hnow => Nat.le_add_right_of_le (h.now_le now hnow), fun l hl id hid =>
      (h.listed l hl id hid).of_eq (Nat.le_add_right _ _) rfl rfl⟩
  | getContext connId =>
    obtain ⟨-, ⟨⟩⟩ := Option.ite_none_right_eq_some.mp hstep
    exact ⟨h.now_le, fun l hl id hid => (h.listed l hl id hid).getContext hstep⟩
  | refresh connId data =>
    obtain ⟨-, ⟨⟩⟩ := Option.ite_none_right_eq_some.mp hstep
    exact ⟨h.now_le, fun l hl id hid => (h.listed l hl id hid).refresh hstep⟩
  | parse connId buffer isKeepAlive =>
    obtain ⟨-, ⟨⟩⟩ := Option.ite_none_right_eq_some.mp hstep
    exact ⟨h.now_le, fun l hl id hid => (h.listed l hl id hid).parse hstep⟩
  | leave connId =>
    obtain ⟨-, ⟨⟩⟩ := Option.ite_none_right_eq_some.mp hstep
    exact ⟨h.now_le, fun l hl id hid => (h.listed l hl id hid).of_eq (Nat.le_refl _) rfl rfl⟩
  | removeContext connId =>
    obtain ⟨-, ⟨⟩⟩ := Option.ite_none_right_eq_some.mp hstep
    exact ⟨h.now_le, fun l hl id hid => (h.listed l hl id hid).removeContext rfl rfl rfl⟩
  | cleanupNow =>
    simp only [CleanupRun.step] at hstep
    split at hstep
    · cases hstep
      refine ⟨fun now hnow => ?_, fun l hl => nomatch hl⟩
      cases hnow
      exact Nat.le_refl _
    · cases hstep
  | cleanupCollect timeoutConns =>
    simp only [CleanupRun.step] at hstep
    split at hstep
    · rename_i now hpoint
      split at hstep
      · rename_i hlist
        cases hstep
        refine ⟨fun now hnow => (nomatch hnow), fun l hl id hid => ?_⟩
        cases hl
        have hmem : id ∈ s.expired requestTimeout now := hlist.2 ▸ List.mem_toFinset.mpr hid
        exact .of_expired (h.now_le now hpoint) hmem _
      · cases hstep
    · cases hstep
  | cleanupRemove =>
    simp only [CleanupRun.step] at hstep
    split at hstep
    · cases hstep
      exact ⟨fun now hnow => (nomatch hnow), fun l hl => nomatch hl⟩
    · rename_i connId rest hpoint
      cases hstep
      refine ⟨fun now hnow => (nomatch hnow), fun l hl id hid => ?_⟩
      cases hl
      exact (h.listed _ hpoint id (List.mem_cons_of_mem _ hid)).removeContext rfl rfl rfl
    · cases hstep

/-- **One step erases only what is idle exactly if that has not been refreshed.** -/
theorem erasesIdle_iff (h : s.Inv requestTimeout) (a : CleanupStep) :
    ErasesIdle requestTimeout s a ↔ NotRefreshed requestTimeout s a := by
  cases a with
  | cleanupRemove =>
    refine forall_congr' fun connId => forall_congr' fun rest => forall_congr' fun hpoint => ?_
    exact (h.listed _ hpoint connId List.mem_cons_self).erasesIdle_iff
  | _ => exact Iff.rfl

end CleanupRun.Inv

/-! ## What is kept of a connection -/

namespace CleanupRun

variable {requestTimeout : ℕ} {s t : CleanupRun}

/-- What a step does to one connection is all that matters to what is kept of it. -/
theorem KeepsActive.of_eq (h : s.KeepsActive) (connId : UInt64)
    (hpoint : ∀ id ≠ connId, t.onData id = s.onData id)
    (hlookup : ∀ id ≠ connId, t.contexts.lookup id = s.contexts.lookup id)
    (hunparsed : ∀ id ≠ connId, t.unparsed id = s.unparsed id)
    (hhas : t.onData connId ≠ .idle → t.contexts.lookup connId ≠ none)
    (hbuffer : ((t.contexts.lookup connId).map ConnectionHttpContext.buffer).getD []
      = t.unparsed connId) : t.KeepsActive := by
  refine ⟨fun id => ?_, fun id => ?_⟩
  · by_cases hid : id = connId
    · exact hid ▸ hhas
    · rw [hpoint id hid, hlookup id hid]
      exact h.has_context id
  · by_cases hid : id = connId
    · exact hid ▸ hbuffer
    · rw [hlookup id hid, hunparsed id hid]
      exact h.buffer_eq id

/-- `OnData` changes the context that it has. -/
theorem KeepsActive.modifyContext {connId : UInt64} (h : s.KeepsActive)
    (hpoint : s.onData connId ≠ .idle) {f : ConnectionHttpContext → ConnectionHttpContext}
    (hcontexts : t.contexts = s.contexts.modifyContext connId f)
    (hpoint' : ∀ id ≠ connId, t.onData id = s.onData id)
    (hunparsed : ∀ id ≠ connId, t.unparsed id = s.unparsed id)
    (hbuffer : ∀ ctx, ctx.buffer = s.unparsed connId → (f ctx).buffer = t.unparsed connId) :
    t.KeepsActive := by
  obtain ⟨ctx, hctx⟩ := Option.ne_none_iff_exists'.mp (h.has_context connId hpoint)
  have hlookup : t.contexts.lookup connId = some (f ctx) := by
    rw [hcontexts, HttpContexts.lookup_modifyContext_self, hctx]
    rfl
  have hold := h.buffer_eq connId
  rw [hctx] at hold
  refine h.of_eq connId hpoint' (fun id hid => ?_) hunparsed (fun _ => ?_) ?_
  · rw [hcontexts, HttpContexts.lookup_modifyContext hid]
  · rw [hlookup]
    exact Option.some_ne_none _
  · rw [hlookup]
    exact hbuffer ctx hold

/-- Where all is kept behind a step of the clean-up, no call was working on what it has erased. -/
theorem KeepsActive.idle_of_removed {connId : UInt64} (h : t.KeepsActive)
    (hpoint : t.onData = s.onData) (hcontexts : t.contexts = s.contexts.removeContext connId) :
    s.onData connId = .idle := by
  by_contra hcall
  refine h.has_context connId (by rwa [hpoint]) ?_
  rw [hcontexts, HttpContexts.lookup_removeContext_self]

/-- Every step of `OnData` and of the clock keeps all, and the clean-up what is active, if it takes
no context from a call and erases only what is idle. -/
theorem KeepsActive.step (h : s.KeepsActive) {a : CleanupStep}
    (hidle : ErasesIdle requestTimeout s a) (hno : NotEntered s a)
    (hstep : s.step requestTimeout a = some t) : t.KeepsActive := by
  cases a with
  | tick n =>
    cases hstep
    exact ⟨h.has_context, h.buffer_eq⟩
  | getContext connId =>
    obtain ⟨-, ⟨⟩⟩ := Option.ite_none_right_eq_some.mp hstep
    have hlookup := @HttpContexts.lookup_getContext_self s.contexts connId
    refine h.of_eq connId (fun id hid => Function.update_of_ne hid _ _)
      (fun id hid => HttpContexts.lookup_getContext hid) (fun _ _ => rfl) (fun _ => ?_) ?_
    · exact hlookup ▸ Option.some_ne_none _
    · refine Eq.trans ?_ (h.buffer_eq connId)
      rw [hlookup]
      cases s.contexts.lookup connId <;> rfl
  | refresh connId data =>
    obtain ⟨hpoint, ⟨⟩⟩ := Option.ite_none_right_eq_some.mp hstep
    refine h.modifyContext (by rw [hpoint]; exact nofun) rfl
      (fun id hid => Function.update_of_ne hid _ _) (fun id hid => Function.update_of_ne hid _ _)
      fun ctx hctx => ?_
    show ctx.buffer ++ data = Function.update s.unparsed connId _ connId
    rw [Function.update_self, hctx]
  | parse connId buffer isKeepAlive =>
    obtain ⟨hpoint, ⟨⟩⟩ := Option.ite_none_right_eq_some.mp hstep
    refine h.modifyContext (by rw [hpoint]; exact nofun) rfl (fun _ _ => rfl)
      (fun id hid => Function.update_of_ne hid _ _) fun _ _ => ?_
    exact (Function.update_self connId buffer s.unparsed).symm
  | leave connId =>
    obtain ⟨-, ⟨⟩⟩ := Option.ite_none_right_eq_some.mp hstep
    exact h.of_eq connId (fun id hid => Function.update_of_ne hid _ _)
      (fun _ _ => rfl) (fun _ _ => rfl) (fun hne => absurd (Function.update_self _ _ _) hne)
      (h.buffer_eq connId)
  | removeContext connId =>
    obtain ⟨-, ⟨⟩⟩ := Option.ite_none_right_eq_some.mp hstep
    refine h.of_eq connId (fun id hid => Function.update_of_ne hid _ _)
      (fun id hid => HttpContexts.lookup_removeContext hid)
      (fun id hid => Function.update_of_ne hid _ _)
      (fun hne => absurd (Function.update_self _ _ _) hne) ?_
    rw [HttpContexts.lookup_removeContext_self]
    exact (Function.update_self connId [] s.unparsed).symm
  | cleanupNow =>
    simp only [CleanupRun.step] at hstep
    split at hstep <;> cases hstep
    exact ⟨h.has_context, h.buffer_eq⟩
  | cleanupCollect timeoutConns =>
    simp only [CleanupRun.step] at hstep
    split at hstep
    · split at hstep <;> cases hstep
      exact ⟨h.has_context, h.buffer_eq⟩
    · cases hstep
  | cleanupRemove =>
    simp only [CleanupRun.step] at hstep
    split at hstep
    · cases hstep
      exact ⟨h.has_context, h.buffer_eq⟩
    · rename_i connId rest hpoint
      cases hstep
      have hcall := hno connId rest hpoint
      have hactive : ¬ s.Active requestTimeout connId := by
        rintro (hc | ⟨ctx, hctx, hc⟩)
        · exact hc hcall
        · exact hc (hidle connId rest hpoint ctx hctx)
      rw [if_neg hactive]
      refine h.of_eq connId (fun _ _ => rfl)
        (fun id hid => HttpContexts.lookup_removeContext hid)
        (fun id hid => Function.update_of_ne hid _ _) (fun hne => absurd hcall hne) ?_
      rw [HttpContexts.lookup_removeContext_self]
      exact (Function.update_self connId [] s.unparsed).symm
    · cases hstep

/-- **One step keeps what is active exactly if it takes no context from a call.** -/
theorem keepsActive_step_iff (h : s.KeepsActive) {a : CleanupStep}
    (hidle : ErasesIdle requestTimeout s a) (hstep : s.step requestTimeout a = some t) :
    t.KeepsActive ↔ NotEntered s a := by
  refine ⟨fun ht => ?_, fun hno => h.step hidle hno hstep⟩
  cases a with
  | cleanupRemove =>
    intro connId rest hpoint
    simp only [CleanupRun.step, hpoint] at hstep
    cases hstep
    exact ht.idle_of_removed rfl rfl
  | _ => trivial

end CleanupRun

/-! ## Runs -/

theorem cleanup_step {requestTimeout : ℕ} {s : CleanupRun} {a : CleanupStep}
    {r : CleanupRun × Unit} :
    (cleanup requestTimeout).step s a = some r ↔ s.step requestTimeout a = some r.1 := by
  show (s.step requestTimeout a).map _ = some r ↔ _
  rw [Option.map_eq_some_iff]
  exact ⟨fun ⟨t, ht, he⟩ => he ▸ ht, fun h => ⟨r.1, h, rfl⟩⟩

/-- **When the clean-up removes only idle contexts.** For every timeout, every clock and every
interleaving of the steps of the calls of `OnData` with those of the clean-up: each context that
the clean-up erases has been idle for longer than the timeout at that moment, and nothing that was
received on a connection is discarded while it is active, exactly if no context is refreshed
between the making of the list and its removal, or only longer before it than the timeout, and
none is removed while a call of `OnData` works on it. -/
theorem cleanup_erases_idle_iff (requestTimeout clock : ℕ) (steps : List CleanupStep) :
    (cleanup requestTimeout).Along (ErasesIdle requestTimeout) { clock } steps
        ∧ (cleanup requestTimeout).Always CleanupRun.KeepsActive { clock } steps
      ↔ (cleanup requestTimeout).Along
          (fun s a => NotRefreshed requestTimeout s a ∧ NotEntered s a) { clock } steps := by
  have hstart : ({ clock } : CleanupRun).Inv requestTimeout :=
    ⟨fun _ h => (nomatch h), fun _ h => nomatch h⟩
  have hkept : ({ clock } : CleanupRun).KeepsActive :=
    ⟨fun id hne => absurd rfl hne, fun id => rfl⟩
  have hinv : ∀ s a (r : CleanupRun × Unit), s.Inv requestTimeout →
      (cleanup requestTimeout).step s a = some r → r.1.Inv requestTimeout :=
    fun _ _ _ h hr => h.step (cleanup_step.mp hr)
  have hrefreshed : (cleanup requestTimeout).Along (ErasesIdle requestTimeout) { clock } steps
      ↔ (cleanup requestTimeout).Along (NotRefreshed requestTimeout) { clock } steps :=
    Machine.along_iff_along hinv (fun _ a _ h _ => h.erasesIdle_iff a) hstart
  have hentered : (cleanup requestTimeout).Along (ErasesIdle requestTimeout) { clock } steps →
      ((cleanup requestTimeout).Always CleanupRun.KeepsActive { clock } steps
        ↔ (cleanup requestTimeout).Along NotEntered { clock } steps) := fun hidle =>
    Machine.always_iff_along_of (I := CleanupRun.KeepsActive) (fun _ h => h)
      (fun _ _ _ h hidle hno hr => h.step hidle hno (cleanup_step.mp hr))
      (fun _ _ _ h hidle hno hr ht =>
        hno ((CleanupRun.keepsActive_step_iff h hidle (cleanup_step.mp hr)).mp ht))
      hkept hidle
  constructor
  · rintro ⟨hidle, hkeeps⟩
    exact (hrefreshed.mp hidle).and ((hentered hidle).mp hkeeps)
  · intro hcond
    have hidle := hrefreshed.mpr (hcond.imp fun _ _ hc => hc.1)
    exact ⟨hidle, (hentered hidle).mpr (hcond.imp fun _ _ hc => hc.2)⟩

/-- Data arrive between the making of the list and the removal, and are thrown away. -/
theorem cleanup_erases_refreshed :
    ¬ (cleanup 30).Along (ErasesIdle 30) { clock := 100 }
      [.getContext 7, .refresh 7 (lit "GET"), .leave 7, .tick 50, .cleanupNow,
        .cleanupCollect [7], .getContext 7, .refresh 7 (lit " /"), .leave 7, .cleanupRemove] := by
  intro h
  -- the last of the ten steps
  have hlast := ((((((((((h _ rfl).2 _ rfl).2 _ rfl).2 _ rfl).2 _ rfl).2 _ rfl).2 _ rfl).2 _ rfl).2
    _ rfl).2 _ rfl).1
  have hidle := hlast 7 [] rfl ⟨lit "GET /", 150, true⟩ (by decide +kernel)
  revert hidle
  decide
