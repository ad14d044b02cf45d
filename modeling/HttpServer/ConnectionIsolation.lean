import HttpServer.Family
import HttpServer.HttpContexts
import HttpServer.OnData

/-!
# Connections that share the HTTP handler

Every connection has a thread that calls `OnData`, and all of them share one
`HttpProtocolHandler`: the map of the contexts, which the first call for a connection extends
and the last one takes something from, and the request counter. Here `OnData` is cut into the
steps between which the other threads may run, and middlewares and handlers keep no state.

`OneConnection` is the handler that has one connection only: its calls of `OnData` leave what
the function `onData` says, one after the other (`OneConnection.pending_run`). The shared handler
is in lockstep with a family of them, and that is what `connections_isolated` says.
-/

/-- Where a call of `OnData` is. -/
inductive CallPoint
  | idle
  /-- It has a reference to its context. -/
  | entered (now : ℕ) (data : Bytes)
  /-- The data are in the buffer, and it looks for an upgrade. -/
  | looking
  /-- A request asks for the upgrade. -/
  | upgrading (req : HttpRequest)
  /-- It is at the head of the loop. -/
  | looping
  | parsed (req : HttpRequest)
  /-- The request is counted, and `HandleRequest` comes next. -/
  | counted (req : HttpRequest)
  | handled
  /-- It is in front of `RemoveContext`, and will have left the connection like this. -/
  | leaving (outcome : ConnOutcome)

/-- The steps of the thread of a connection: data arrive, or the call of `OnData` goes on. -/
inductive CallStep
  | onData (now : ℕ) (data : Bytes)
  | next

/-- A connection, with its call of `OnData`: the requests passed to `HandleRequest`, how the calls
that are over have ended, its user data, and the calls made on it. -/
structure HttpConnection where
  point : CallPoint := .idle
  requests : List HttpRequest := []
  outcomes : List ConnOutcome := []
  userData : StringMap := ∅
  calls : List ConnCall := []

namespace HttpConnection

variable (conn : HttpConnection)

/-- The call is over. -/
def leave (outcome : ConnOutcome) : HttpConnection :=
  { conn with point := .idle, outcomes := conn.outcomes ++ [outcome] }

/-- How many of its requests have been counted: those that have been passed to `HandleRequest`, and
the one that is going to be. -/
def counted : ℕ :=
  match conn.point with
  | .counted _ => conn.requests.length + 1
  | _ => conn.requests.length

/-- What `HandleRequest` has done to the connection. -/
def setWorld (w : World Unit) : HttpConnection :=
  { conn with userData := w.userData, calls := w.calls }

end HttpConnection

/-! ## The source -/

/-- The handler that all connections share: `contexts_`, `total_requests_`, and the connections. -/
structure SharedHandler (κ : Type*) where
  contexts : HttpContexts := ∅
  totalRequests : ℕ := 0
  connections : κ → HttpConnection := fun _ => {}

namespace SharedHandler

variable {κ : Type*} [DecidableEq κ] (connId : κ → UInt64) (s : SharedHandler κ) (c : κ)

/-- The context behind the reference of a call. -/
def ctx : ConnectionHttpContext := (s.contexts.lookup (connId c)).getD {}

/-- What `HandleRequest` finds. -/
def world : World Unit :=
  ⟨(), (s.connections c).userData, (s.connections c).calls, s.totalRequests⟩

/-- A connection is changed. -/
def setConnection (conn : HttpConnection) : SharedHandler κ :=
  { s with connections := Function.update s.connections c conn }

/-- The call goes on. -/
def goto (point : CallPoint) : SharedHandler κ :=
  s.setConnection c { s.connections c with point }

/-- The call is over. -/
def leave (outcome : ConnOutcome) : SharedHandler κ :=
  s.setConnection c ((s.connections c).leave outcome)

/-- What is left behind on the connection and the counter. -/
def setWorld (w : World Unit) : SharedHandler κ :=
  { s.setConnection c ((s.connections c).setWorld w) with totalRequests := w.totalRequests }

/-- A request has been passed to `HandleRequest`. -/
def log (req : HttpRequest) : SharedHandler κ :=
  s.setConnection c { s.connections c with requests := (s.connections c).requests ++ [req] }

/-- The map of the contexts is changed. -/
def setContexts (contexts : HttpContexts) : SharedHandler κ := { s with contexts }

variable (h : HttpProtocolHandler Unit) (env : Environment Unit)

/-- One step of the thread of a connection. -/
def step : CallStep → Option (SharedHandler κ)
  | .onData now data =>
    match (s.connections c).point with
    | .idle =>
      if !h.running then some (s.leave c .waiting)
      else some ((s.setContexts (s.contexts.getContext (connId c))).goto c (.entered now data))
    | _ => none
  | .next =>
    let modify := s.contexts.modifyContext (connId c)
    match (s.connections c).point with
    | .idle => none
    | .entered now data =>
      some ((s.setContexts (modify fun ctx =>
        { ctx with lastActivity := now, buffer := ctx.buffer ++ data })).goto c .looking)
    | .looking =>
      match HttpProtocolHandler.upgradeRequest (s.ctx connId c) with
      | .error e => some (s.leave c (.raised e))
      | .ok none => some (s.goto c .looping)
      | .ok (some req) => some (s.goto c (.upgrading req))
    | .upgrading req =>
      let r := HttpProtocolHandler.upgrade env (s.ctx connId c) req (s.world c)
      match r.outcome with
      | .raised e => some (s.leave c (.raised e))
      | outcome => some ((s.setWorld c r.world).goto c (.leaving outcome))
    | .looping =>
      if (s.ctx connId c).buffer = [] then some (s.leave c .waiting)
      else
        match parseHttpRequest (s.ctx connId c) {} with
        | .error e => some (s.leave c (.raised e))
        | .ok (false, ctx, _) => some ((s.setContexts (modify fun _ => ctx)).leave c .waiting)
        | .ok (true, ctx, req) => some ((s.setContexts (modify fun _ => ctx)).goto c (.parsed req))
    | .parsed req =>
      some ({ s with totalRequests := s.totalRequests + 1 }.goto c (.counted req))
    | .counted req =>
      match HttpProtocolHandler.handleRequest h env (s.world c) req with
      | (.error e, w) => some (((s.setWorld c w).log c req).leave c (.raised e))
      | (.ok (), w) => some (((s.setWorld c w).log c req).goto c .handled)
    | .handled =>
      if !(s.ctx connId c).isKeepAlive then
        let w := s.world c
        some ((s.setWorld c { w with calls := w.calls ++ [.close] }).goto c (.leaving .closed))
      else some ((s.setContexts (modify ConnectionHttpContext.reset)).goto c .looping)
    | .leaving outcome =>
      some ((s.setContexts (s.contexts.removeContext (connId c))).leave c outcome)

end SharedHandler

/-- The threads of the connections at the handler they share. -/
def sharedHandler {κ : Type*} [DecidableEq κ] (connId : κ → UInt64) (h : HttpProtocolHandler Unit)
    (env : Environment Unit) : Machine (SharedHandler κ) (κ × CallStep) Unit :=
  ⟨fun s a => (s.step connId a.1 h env a.2).map fun s' => (s', ())⟩

/-! ## A connection alone -/

/-- **The handler with one connection only**: what `contexts_` has for it, `total_requests_`, and
the connection. -/
structure OneConnection where
  entry : Option ConnectionHttpContext := none
  totalRequests : ℕ := 0
  conn : HttpConnection := {}

namespace OneConnection

variable (p : OneConnection)

def ctx : ConnectionHttpContext := p.entry.getD {}

def world : World Unit := ⟨(), p.conn.userData, p.conn.calls, p.totalRequests⟩

def goto (point : CallPoint) : OneConnection := { p with conn := { p.conn with point } }

def leave (outcome : ConnOutcome) : OneConnection := { p with conn := p.conn.leave outcome }

def setWorld (w : World Unit) : OneConnection :=
  { p with conn := p.conn.setWorld w, totalRequests := w.totalRequests }

def log (req : HttpRequest) : OneConnection :=
  { p with conn := { p.conn with requests := p.conn.requests ++ [req] } }

def setEntry (entry : Option ConnectionHttpContext) : OneConnection := { p with entry }

variable (h : HttpProtocolHandler Unit) (env : Environment Unit)

/-- One step of its thread. -/
def step : CallStep → Option OneConnection
  | .onData now data =>
    match p.conn.point with
    | .idle =>
      if !h.running then some (p.leave .waiting)
      else some ((p.setEntry (some p.ctx)).goto (.entered now data))
    | _ => none
  | .next =>
    match p.conn.point with
    | .idle => none
    | .entered now data =>
      some ((p.setEntry (p.entry.map fun ctx =>
        { ctx with lastActivity := now, buffer := ctx.buffer ++ data })).goto .looking)
    | .looking =>
      match HttpProtocolHandler.upgradeRequest p.ctx with
      | .error e => some (p.leave (.raised e))
      | .ok none => some (p.goto .looping)
      | .ok (some req) => some (p.goto (.upgrading req))
    | .upgrading req =>
      let r := HttpProtocolHandler.upgrade env p.ctx req p.world
      match r.outcome with
      | .raised e => some (p.leave (.raised e))
      | outcome => some ((p.setWorld r.world).goto (.leaving outcome))
    | .looping =>
      if p.ctx.buffer = [] then some (p.leave .waiting)
      else
        match parseHttpRequest p.ctx {} with
        | .error e => some (p.leave (.raised e))
        | .ok (false, ctx, _) => some ((p.setEntry (p.entry.map fun _ => ctx)).leave .waiting)
        | .ok (true, ctx, req) =>
          some ((p.setEntry (p.entry.map fun _ => ctx)).goto (.parsed req))
    | .parsed req =>
      some ({ p with totalRequests := p.totalRequests + 1 }.goto (.counted req))
    | .counted req =>
      match HttpProtocolHandler.handleRequest h env p.world req with
      | (.error e, w) => some (((p.setWorld w).log req).leave (.raised e))
      | (.ok (), w) => some (((p.setWorld w).log req).goto .handled)
    | .handled =>
      if !p.ctx.isKeepAlive then
        let w := p.world
        some ((p.setWorld { w with calls := w.calls ++ [.close] }).goto (.leaving .closed))
      else some ((p.setEntry (p.entry.map ConnectionHttpContext.reset)).goto .looping)
    | .leaving outcome => some ((p.setEntry none).leave outcome)

end OneConnection

/-- The thread of a connection at a handler of its own. -/
def oneConnection (h : HttpProtocolHandler Unit) (env : Environment Unit) :
    Machine OneConnection CallStep Unit :=
  ⟨fun p a => (p.step h env a).map fun p' => (p', ())⟩

/-! ## The counter makes no difference -/

namespace HttpProtocolHandler

variable {σ : Type*} (h : HttpProtocolHandler σ) (env : Environment σ)

/-- Handling a request neither reads the counter nor changes it. -/
theorem handleRequest_totalRequests (w : World σ) (n : ℕ) (req : HttpRequest) :
    handleRequest h env { w with totalRequests := n } req
      = ((handleRequest h env w req).1,
        { (handleRequest h env w req).2 with totalRequests := n }) := by
  obtain ⟨r, user, userData, sent, hframe, -⟩ := handleRequest_frame h env w req
  have hself : handleRequest h env w req = _ := hframe w.calls w.totalRequests
  rw [hself]
  exact hframe w.calls n

theorem totalRequests_handleRequest (w : World σ) (req : HttpRequest) :
    (handleRequest h env w req).2.totalRequests = w.totalRequests := by
  have hself := handleRequest_totalRequests h env w w.totalRequests req
  exact congrArg (fun r => r.2.totalRequests) hself

/-- Nor does an upgrade. -/
theorem upgrade_totalRequests (ctx : ConnectionHttpContext) (req : HttpRequest) (w : World σ)
    (n : ℕ) :
    (upgrade env ctx req { w with totalRequests := n }).outcome = (upgrade env ctx req w).outcome
      ∧ (upgrade env ctx req { w with totalRequests := n }).world
        = { (upgrade env ctx req w).world with totalRequests := n } := by
  unfold upgrade
  dsimp only
  split
  · exact ⟨rfl, rfl⟩
  · split_ifs <;> exact ⟨rfl, rfl⟩

theorem totalRequests_upgrade (ctx : ConnectionHttpContext) (req : HttpRequest) (w : World σ) :
    (upgrade env ctx req w).world.totalRequests = w.totalRequests := by
  have hself := (upgrade_totalRequests env ctx req w w.totalRequests).2
  exact congrArg (fun w => w.totalRequests) hself

end HttpProtocolHandler

/-! ## The shared handler is a family of single ones -/

variable {κ : Type*} [DecidableEq κ] {connId : κ → UInt64}

/-- **Each connection has what it would have alone**, and the counter is the sum of the counters. -/
structure Shares (connId : κ → UInt64) (s : SharedHandler κ) (f : κ → OneConnection) : Prop where
  lookup_eq : ∀ c, s.contexts.lookup (connId c) = (f c).entry
  connection_eq : ∀ c, s.connections c = (f c).conn
  addsUp : AddsUp (fun c => (f c).totalRequests) s.totalRequests

namespace Shares

variable {s s' : SharedHandler κ} {f : κ → OneConnection} {c : κ} {p q : OneConnection}

/-- The counters of a family, one of which has changed. -/
theorem totalRequests_update (f : κ → OneConnection) (c : κ) (p : OneConnection) :
    (fun d => (Function.update f c p d).totalRequests)
      = Function.update (fun d => (f d).totalRequests) c p.totalRequests := by
  funext d
  exact Function.apply_update (fun _ => OneConnection.totalRequests) f c p d

theorem lookup_self (hs : Shares connId s (Function.update f c p)) :
    s.contexts.lookup (connId c) = p.entry := by
  rw [hs.lookup_eq, Function.update_self]

theorem connection_self (hs : Shares connId s (Function.update f c p)) :
    s.connections c = p.conn := by
  rw [hs.connection_eq, Function.update_self]

/-- What a step has to keep, seen from the connection that takes it. -/
theorem of_update (hs : Shares connId s (Function.update f c p))
    (hlookup : s'.contexts.lookup (connId c) = q.entry) (hconn : s'.connections c = q.conn)
    (hother : ∀ d ≠ c, s'.contexts.lookup (connId d) = s.contexts.lookup (connId d)
      ∧ s'.connections d = s.connections d)
    (htotal : AddsUp (fun d => (Function.update f c q d).totalRequests) s'.totalRequests) :
    Shares connId s' (Function.update f c q) := by
  refine ⟨fun d => ?_, fun d => ?_, htotal⟩
  · by_cases hd : d = c
    · rw [hd, Function.update_self, hlookup]
    · rw [Function.update_of_ne hd, (hother d hd).1, hs.lookup_eq, Function.update_of_ne hd]
  · by_cases hd : d = c
    · rw [hd, Function.update_self, hconn]
    · rw [Function.update_of_ne hd, (hother d hd).2, hs.connection_eq, Function.update_of_ne hd]

/-- Only the connection itself is changed. -/
theorem setConnection (hs : Shares connId s (Function.update f c p)) (conn : HttpConnection) :
    Shares connId (s.setConnection c conn) (Function.update f c { p with conn }) := by
  refine hs.of_update hs.lookup_self (Function.update_self _ _ _)
    (fun d hd => ⟨rfl, Function.update_of_ne hd _ _⟩) ?_
  have haddsUp := hs.addsUp
  rw [totalRequests_update] at haddsUp ⊢
  exact haddsUp

theorem goto (hs : Shares connId s (Function.update f c p)) (point : CallPoint) :
    Shares connId (s.goto c point) (Function.update f c (p.goto point)) := by
  unfold SharedHandler.goto
  rw [hs.connection_self]
  exact hs.setConnection _

theorem leave (hs : Shares connId s (Function.update f c p)) (outcome : ConnOutcome) :
    Shares connId (s.leave c outcome) (Function.update f c (p.leave outcome)) := by
  unfold SharedHandler.leave
  rw [hs.connection_self]
  exact hs.setConnection _

theorem log (hs : Shares connId s (Function.update f c p)) (req : HttpRequest) :
    Shares connId (s.log c req) (Function.update f c (p.log req)) := by
  unfold SharedHandler.log
  rw [hs.connection_self]
  exact hs.setConnection _

/-- What `HandleRequest` leaves on the connection, the counters being as they were. -/
theorem setWorld (hs : Shares connId s (Function.update f c p)) {w : World Unit}
    (hw : w.totalRequests = p.totalRequests) :
    Shares connId (s.setWorld c { w with totalRequests := s.totalRequests })
      (Function.update f c (p.setWorld w)) := by
  have hset := hs.setConnection (p.conn.setWorld w)
  unfold SharedHandler.setWorld
  rw [hs.connection_self]
  have hp : p.setWorld w = { p with conn := p.conn.setWorld w } := by
    rw [OneConnection.setWorld, hw]
  rw [hp]
  exact hset

/-- A context is changed, and the others are as they were. -/
theorem setContexts (hs : Shares connId s (Function.update f c p)) {contexts : HttpContexts}
    (hother : ∀ id ≠ connId c, contexts.lookup id = s.contexts.lookup id)
    (hid : Function.Injective connId) {entry : Option ConnectionHttpContext}
    (hlookup : contexts.lookup (connId c) = entry) :
    Shares connId (s.setContexts contexts) (Function.update f c (p.setEntry entry)) := by
  refine hs.of_update hlookup hs.connection_self (fun d hd => ⟨?_, rfl⟩) ?_
  · exact hother _ fun he => hd (hid he)
  · have haddsUp := hs.addsUp
    rw [totalRequests_update] at haddsUp ⊢
    exact haddsUp

/-- A request is counted. -/
theorem count (hs : Shares connId s (Function.update f c p)) :
    Shares connId { s with totalRequests := s.totalRequests + 1 }
      (Function.update f c { p with totalRequests := p.totalRequests + 1 }) := by
  refine hs.of_update hs.lookup_self hs.connection_self (fun d hd => ⟨rfl, rfl⟩) ?_
  have haddsUp := hs.addsUp.succ c
  rw [totalRequests_update, Function.update_idem, Function.update_self] at haddsUp
  rw [totalRequests_update]
  exact haddsUp

/-- Both find the same context. -/
theorem ctx_eq (hs : Shares connId s (Function.update f c p)) : s.ctx connId c = p.ctx := by
  rw [SharedHandler.ctx, hs.lookup_self, OneConnection.ctx]

/-- Both find the same, but for the counter. -/
theorem world_eq (hs : Shares connId s (Function.update f c p)) :
    s.world c = { p.world with totalRequests := s.totalRequests } := by
  rw [SharedHandler.world, hs.connection_self, OneConnection.world]

/-- A context is changed through the reference to it. -/
theorem modifyContext (hs : Shares connId s (Function.update f c p))
    (hid : Function.Injective connId) (g : ConnectionHttpContext → ConnectionHttpContext) :
    Shares connId (s.setContexts (s.contexts.modifyContext (connId c) g))
      (Function.update f c (p.setEntry (p.entry.map g))) := by
  refine hs.setContexts (fun id hne => HttpContexts.lookup_modifyContext hne g) hid ?_
  rw [HttpContexts.lookup_modifyContext_self, hs.lookup_self]

variable {h : HttpProtocolHandler Unit} {env : Environment Unit}

/-- **A step at the shared handler is one that the connection takes alone**, and no other
connection notices it. -/
theorem step (hid : Function.Injective connId) (hs : Shares connId s (Function.update f c p))
    (a : CallStep) :
    Option.Rel (fun s' q => Shares connId s' (Function.update f c q)) (s.step connId c h env a)
      (p.step h env a) := by
  cases a with
  | onData now data =>
    simp only [SharedHandler.step, OneConnection.step, hs.connection_self]
    cases p.conn.point with
    | idle =>
      dsimp only
      split
      · exact .some (hs.leave _)
      · refine .some (Shares.goto ?_ _)
        refine hs.setContexts (fun id hne => HttpContexts.lookup_getContext hne) hid ?_
        rw [HttpContexts.lookup_getContext_self, hs.lookup_self]
        rfl
    | _ => exact .none
  | next =>
    simp only [SharedHandler.step, OneConnection.step, hs.connection_self, hs.ctx_eq]
    cases p.conn.point with
    | idle => exact .none
    | entered now data => exact .some ((hs.modifyContext hid _).goto _)
    | looking =>
      dsimp only
      rcases HttpProtocolHandler.upgradeRequest p.ctx with e | - | req
      · exact .some (hs.leave _)
      · exact .some (hs.goto _)
      · exact .some (hs.goto _)
    | upgrading req =>
      dsimp only
      obtain ⟨houtcome, hworld⟩ :=
        HttpProtocolHandler.upgrade_totalRequests env p.ctx req p.world s.totalRequests
      rw [hs.world_eq, houtcome, hworld]
      have hset := hs.setWorld (HttpProtocolHandler.totalRequests_upgrade env p.ctx req p.world)
      cases (HttpProtocolHandler.upgrade env p.ctx req p.world).outcome with
      | raised e => exact .some (hs.leave _)
      | _ => exact .some (hset.goto _)
    | looping =>
      dsimp only
      split
      · exact .some (hs.leave _)
      · rcases parseHttpRequest p.ctx {} with e | ⟨- | -, ctx, req⟩
        · exact .some (hs.leave _)
        · exact .some ((hs.modifyContext hid _).leave _)
        · exact .some ((hs.modifyContext hid _).goto _)
    | parsed req => exact .some (hs.count.goto _)
    | counted req =>
      dsimp only
      have hw := HttpProtocolHandler.totalRequests_handleRequest h env p.world req
      rw [hs.world_eq, HttpProtocolHandler.handleRequest_totalRequests]
      generalize HttpProtocolHandler.handleRequest h env p.world req = r at hw
      obtain ⟨e | ⟨⟩, w⟩ := r
      · exact .some (((hs.setWorld hw).log req).leave _)
      · exact .some (((hs.setWorld hw).log req).goto _)
    | handled =>
      dsimp only
      split
      · have hset := hs.setWorld (w := { p.world with calls := p.world.calls ++ [.close] }) rfl
        rw [hs.world_eq]
        exact .some (hset.goto _)
      · exact .some ((hs.modifyContext hid _).goto _)
    | leaving outcome =>
      refine .some (Shares.leave ?_ _)
      exact hs.setContexts (fun id hne => HttpContexts.lookup_removeContext hne) hid
        HttpContexts.lookup_removeContext_self

end Shares

/-- **The shared handler is in lockstep with the family of single ones.** -/
theorem sharedHandler_lockstep (h : HttpProtocolHandler Unit) (env : Environment Unit)
    (hid : Function.Injective connId) :
    (sharedHandler connId h env).Lockstep ((oneConnection h env).family κ) (Shares connId) := by
  intro s f hs a
  have hstep : Option.Rel (fun s' q => Shares connId s' (Function.update f a.1 q))
      (s.step connId a.1 h env a.2) ((f a.1).step h env a.2) :=
    Shares.step hid (by rwa [Function.update_eq_self]) a.2
  simp only [sharedHandler, Machine.family, oneConnection]
  generalize s.step connId a.1 h env a.2 = r, (f a.1).step h env a.2 = q at hstep
  cases hstep with
  | none => exact .none
  | some hshares => exact .some ⟨hshares, trivial⟩

/-! ## A connection alone makes its calls one after the other -/

/-- What the calls of `OnData` for a connection leave: the requests passed to `HandleRequest`, how
each call ended, the entry of `contexts_`, and the world. -/
structure CallLog where
  requests : List HttpRequest := []
  outcomes : List ConnOutcome := []
  entry : Option ConnectionHttpContext := none
  world : World Unit := ⟨(), ∅, [], 0⟩

/-- One more call. -/
def CallLog.add (l : CallLog) (r : Received Unit) : CallLog :=
  ⟨l.requests ++ r.requests, l.outcomes ++ [r.outcome], r.entry, r.world⟩

section

variable (h : HttpProtocolHandler Unit) (env : Environment Unit)

/-- **The calls of `OnData` for one connection**, one after the other. -/
def CallLog.calls (l : CallLog) (chunks : List (ℕ × Bytes)) : CallLog :=
  chunks.foldl (fun l chunk => l.add (h.onData env chunk.1 chunk.2 l.entry l.world)) l

/-- The calls that the steps of a thread begin. -/
def chunksOf (steps : List CallStep) : List (ℕ × Bytes) :=
  steps.filterMap fun
    | .onData now data => some (now, data)
    | .next => none

namespace CallPoint

/-- What is left of a call behind the look for an upgrade. -/
def afterLook (ctx : ConnectionHttpContext) (w : World Unit) : Received Unit :=
  match HttpProtocolHandler.upgradeRequest ctx with
  | .error e => ⟨[], .raised e, some ctx, w⟩
  | .ok (some req) => HttpProtocolHandler.upgrade env ctx req w
  | .ok none => h.serve env ctx w

/-- What is left of it behind a request that has been handled. -/
def afterHandled (ctx : ConnectionHttpContext) (w : World Unit) : Received Unit :=
  if !ctx.isKeepAlive then ⟨[], .closed, none, { w with calls := w.calls ++ [.close] }⟩
  else h.serve env ctx.reset w

/-- What is left of it behind the counting of a request. -/
def afterCounted (ctx : ConnectionHttpContext) (w : World Unit) (req : HttpRequest) :
    Received Unit :=
  match h.handleRequest env w req with
  | (.error e, w) => ⟨[req], .raised e, some ctx, w⟩
  | (.ok (), w) =>
    let r := afterHandled h env ctx w
    ⟨req :: r.requests, r.outcome, r.entry, r.world⟩

/-- **What is left of a call** at each of its points. -/
def rest (ctx : ConnectionHttpContext) (w : World Unit) : CallPoint → Option (Received Unit)
  | .idle => none
  | .entered now data =>
    some (afterLook h env { ctx with lastActivity := now, buffer := ctx.buffer ++ data } w)
  | .looking => some (afterLook h env ctx w)
  | .upgrading req => some (HttpProtocolHandler.upgrade env ctx req w)
  | .looping => some (h.serve env ctx w)
  | .parsed req =>
    some (afterCounted h env ctx { w with totalRequests := w.totalRequests + 1 } req)
  | .counted req => some (afterCounted h env ctx w req)
  | .handled => some (afterHandled h env ctx w)
  | .leaving outcome => some ⟨[], outcome, none, w⟩

end CallPoint

namespace OneConnection

variable (p : OneConnection)

/-- What has been left so far. -/
def callLog : CallLog := ⟨p.conn.requests, p.conn.outcomes, p.entry, p.world⟩

/-- **What will have been left when the call is over.** -/
def pending : CallLog :=
  match p.conn.point.rest h env p.ctx p.world with
  | none => p.callLog
  | some r => p.callLog.add r

/-- A call has a context. -/
def HasContext : Prop := (∃ ctx, p.entry = some ctx) ∨ p.conn.point = .idle

end OneConnection

end

/-- A turn of the loop that parses a request. -/
theorem CallPoint.serve_parsed {h : HttpProtocolHandler Unit} {env : Environment Unit}
    {ctx ctx' : ConnectionHttpContext} {req : HttpRequest} (hne : ctx.buffer ≠ [])
    (hparse : parseHttpRequest ctx {} = .ok (true, ctx', req)) (w : World Unit) :
    h.serve env ctx w
      = afterCounted h env ctx' { w with totalRequests := w.totalRequests + 1 } req := by
  rw [HttpProtocolHandler.serve_eq, if_neg hne, hparse]
  unfold afterCounted afterHandled
  dsimp only
  rcases h.handleRequest env { w with totalRequests := w.totalRequests + 1 } req with ⟨e | ⟨⟩, w'⟩
  · rfl
  · dsimp only
    split_ifs <;> rfl

namespace OneConnection

variable {h : HttpProtocolHandler Unit} {env : Environment Unit} {p q : OneConnection}

/-- Where the call goes on, what is left of it is what is left of it there. -/
theorem pending_goto (p : OneConnection) {point : CallPoint} {r : Received Unit}
    (hr : point.rest h env p.ctx p.world = some r) :
    (p.goto point).pending h env = p.callLog.add r := by
  have hgoto : ((p.goto point).conn.point).rest h env (p.goto point).ctx (p.goto point).world
      = some r := hr
  rw [pending, hgoto]
  rfl

/-- Where the call is over, nothing is. -/
theorem pending_leave (p : OneConnection) (outcome : ConnOutcome) :
    (p.leave outcome).pending h env = p.callLog.add ⟨[], outcome, p.entry, p.world⟩ := by
  rw [CallLog.add, List.append_nil]
  rfl

/-- A request that has been handled is the first of what is left of the call. -/
theorem callLog_log (p : OneConnection) (w : World Unit) (req : HttpRequest) (r : Received Unit) :
    ((p.setWorld w).log req).callLog.add r
      = p.callLog.add ⟨req :: r.requests, r.outcome, r.entry, r.world⟩ := by
  show CallLog.mk (p.conn.requests ++ [req] ++ r.requests) _ _ _ = _
  rw [List.append_assoc]
  rfl

/-- An upgrade throws and leaves everything as it is, or it ends the call without an entry. -/
theorem upgrade_cases (ctx : ConnectionHttpContext) (req : HttpRequest) (w : World Unit) :
    (∃ e, HttpProtocolHandler.upgrade env ctx req w = ⟨[], .raised e, some ctx, w⟩)
      ∨ ∃ outcome w', HttpProtocolHandler.upgrade env ctx req w = ⟨[], outcome, none, w'⟩
        ∧ ∀ e, outcome ≠ .raised e := by
  unfold HttpProtocolHandler.upgrade
  split
  · exact Or.inl ⟨_, rfl⟩
  · dsimp only
    split_ifs <;> exact Or.inr ⟨_, _, rfl, fun e he => nomatch he⟩

variable {ctx : ConnectionHttpContext} {req : HttpRequest}

/-- The look for an upgrade. -/
theorem pending_looking (hentry : p.entry = some ctx) (hpoint : p.conn.point = .looking)
    (hstep : p.step h env .next = some q) :
    q.pending h env = p.callLog.add (CallPoint.afterLook h env ctx p.world) ∧ q.HasContext := by
  obtain ⟨entry, totalRequests, ⟨point, requests, outcomes, userData, calls⟩⟩ := p
  dsimp only at hentry hpoint
  subst hentry hpoint
  rw [CallPoint.afterLook]
  simp only [step, OneConnection.ctx, Option.getD_some] at hstep
  rcases hup : HttpProtocolHandler.upgradeRequest ctx with e | - | req <;>
    rw [hup] at hstep <;> cases hstep
  · exact ⟨pending_leave _ _, Or.inr rfl⟩
  · exact ⟨pending_goto _ rfl, Or.inl ⟨_, rfl⟩⟩
  · exact ⟨pending_goto _ rfl, Or.inl ⟨_, rfl⟩⟩

/-- The upgrade. -/
theorem pending_upgrading (hentry : p.entry = some ctx) (hpoint : p.conn.point = .upgrading req)
    (hstep : p.step h env .next = some q) :
    q.pending h env = p.callLog.add (HttpProtocolHandler.upgrade env ctx req p.world)
      ∧ q.HasContext := by
  have hctx : p.ctx = ctx := by rw [OneConnection.ctx, hentry, Option.getD_some]
  simp only [step, hpoint, hctx] at hstep
  rcases @upgrade_cases env ctx req p.world with ⟨e, hup⟩ | ⟨outcome, w, hup, hno⟩
  · rw [hup] at hstep ⊢
    cases hstep
    rw [← hentry]
    exact ⟨pending_leave _ _, Or.inr rfl⟩
  · rw [hup] at hstep ⊢
    cases outcome with
    | raised e => exact absurd rfl (hno e)
    | _ =>
      cases hstep
      exact ⟨pending_goto _ rfl, Or.inl ⟨ctx, hentry⟩⟩

/-- A turn of the loop. -/
theorem pending_looping (hentry : p.entry = some ctx) (hpoint : p.conn.point = .looping)
    (hstep : p.step h env .next = some q) :
    q.pending h env = p.callLog.add (h.serve env ctx p.world) ∧ q.HasContext := by
  have hctx : p.ctx = ctx := by rw [OneConnection.ctx, hentry, Option.getD_some]
  simp only [step, hpoint, hctx, hentry, Option.map_some] at hstep
  by_cases hnil : ctx.buffer = []
  · rw [if_pos hnil] at hstep
    rw [HttpProtocolHandler.serve_eq, if_pos hnil, ← hentry]
    cases hstep
    exact ⟨pending_leave _ _, Or.inr rfl⟩
  · rw [if_neg hnil] at hstep
    rcases hparse : parseHttpRequest ctx {} with e | ⟨- | -, ctx', req⟩ <;>
      rw [hparse] at hstep <;> cases hstep
    · rw [HttpProtocolHandler.serve_eq, if_neg hnil, hparse, ← hentry]
      exact ⟨pending_leave _ _, Or.inr rfl⟩
    · rw [HttpProtocolHandler.serve_eq, if_neg hnil, hparse]
      exact ⟨pending_leave _ _, Or.inr rfl⟩
    · rw [CallPoint.serve_parsed hnil hparse]
      exact ⟨pending_goto _ rfl, Or.inl ⟨_, rfl⟩⟩

/-- `HandleRequest`. -/
theorem pending_counted (hentry : p.entry = some ctx) (hpoint : p.conn.point = .counted req)
    (hstep : p.step h env .next = some q) :
    q.pending h env = p.callLog.add (CallPoint.afterCounted h env ctx p.world req)
      ∧ q.HasContext := by
  have hctx : p.ctx = ctx := by rw [OneConnection.ctx, hentry, Option.getD_some]
  rw [CallPoint.afterCounted]
  simp only [step, hpoint] at hstep
  rcases hhandle : h.handleRequest env p.world req with ⟨e | ⟨⟩, w⟩ <;>
    rw [hhandle] at hstep <;> cases hstep
  · refine ⟨(pending_leave _ _).trans ?_, Or.inr rfl⟩
    rw [callLog_log, ← hentry]
    rfl
  · refine ⟨(pending_goto _ rfl).trans ?_, Or.inl ⟨ctx, hentry⟩⟩
    rw [callLog_log, ← hctx]
    rfl

/-- Behind a request that has been handled. -/
theorem pending_handled (hentry : p.entry = some ctx) (hpoint : p.conn.point = .handled)
    (hstep : p.step h env .next = some q) :
    q.pending h env = p.callLog.add (CallPoint.afterHandled h env ctx p.world)
      ∧ q.HasContext := by
  obtain ⟨entry, totalRequests, ⟨point, requests, outcomes, userData, calls⟩⟩ := p
  dsimp only at hentry hpoint
  subst hentry hpoint
  rw [CallPoint.afterHandled]
  simp only [step, OneConnection.ctx, Option.getD_some] at hstep
  cases hkeep : ctx.isKeepAlive <;> simp only [hkeep] at hstep <;> cases hstep
  · exact ⟨pending_goto _ rfl, Or.inl ⟨_, rfl⟩⟩
  · exact ⟨pending_goto _ rfl, Or.inl ⟨_, rfl⟩⟩

/-- **A step of a call leaves what will have been left when it is over.** -/
theorem pending_next (hctx : p.HasContext) (hstep : p.step h env .next = some q) :
    q.pending h env = p.pending h env ∧ q.HasContext := by
  obtain ⟨entry, totalRequests, ⟨point, requests, outcomes, userData, calls⟩⟩ := p
  rcases hctx with ⟨ctx, hctx⟩ | hidle
  · dsimp only at hctx
    subst hctx
    -- what is pending is what is left of the call at this point, by definition
    cases point with
    | idle => cases hstep
    | entered now data =>
      cases hstep
      exact ⟨pending_goto _ rfl, Or.inl ⟨_, rfl⟩⟩
    | looking => exact pending_looking rfl rfl hstep
    | upgrading req => exact pending_upgrading rfl rfl hstep
    | looping => exact pending_looping rfl rfl hstep
    | parsed req =>
      cases hstep
      exact ⟨pending_goto _ rfl, Or.inl ⟨_, rfl⟩⟩
    | counted req => exact pending_counted rfl rfl hstep
    | handled => exact pending_handled rfl rfl hstep
    | leaving outcome =>
      cases hstep
      exact ⟨pending_leave _ _, Or.inr rfl⟩
  · dsimp only at hidle
    subst hidle
    cases hstep

/-- **Data that arrive are one more call.** -/
theorem pending_onData {now : ℕ} {data : Bytes} (hstep : p.step h env (.onData now data) = some q) :
    q.pending h env
        = (p.pending h env).add (h.onData env now data (p.pending h env).entry
            (p.pending h env).world)
      ∧ q.HasContext := by
  obtain ⟨entry, totalRequests, conn⟩ := p
  obtain ⟨point, requests, outcomes, userData, calls⟩ := conn
  simp only [step] at hstep
  cases point with
  | idle =>
    set p : OneConnection :=
      ⟨entry, totalRequests, ⟨.idle, requests, outcomes, userData, calls⟩⟩ with hp
    have hpending : p.pending h env = p.callLog := rfl
    rw [hpending]
    dsimp only at hstep
    cases hrun : h.running <;> simp only [hrun] at hstep <;> cases hstep
    · refine ⟨(pending_leave _ _).trans ?_, Or.inr rfl⟩
      rw [HttpProtocolHandler.onData, hrun]
      rfl
    · refine ⟨(pending_goto _ rfl).trans ?_, Or.inl ⟨_, rfl⟩⟩
      rw [HttpProtocolHandler.onData, hrun]
      rfl
  | _ => cases hstep

/-- **The steps of a connection alone are its calls, one after the other.** -/
theorem pending_run (hctx : p.HasContext) {steps : List CallStep} {os : List Unit}
    (hrun : (oneConnection h env).run p steps = some (q, os)) :
    q.pending h env = (p.pending h env).calls h env (chunksOf steps) ∧ q.HasContext := by
  induction steps generalizing p os with
  | nil =>
    cases hrun
    exact ⟨rfl, hctx⟩
  | cons a steps ih =>
    obtain ⟨r, os', hstep, hrest, -⟩ := Machine.run_cons_eq_some.mp hrun
    obtain ⟨p', hp', rfl⟩ := Option.map_eq_some_iff.mp hstep
    cases a with
    | onData now data =>
      obtain ⟨hpending, hctx'⟩ := pending_onData hp'
      obtain ⟨hcalls, hq⟩ := ih hctx' hrest
      rw [hpending] at hcalls
      exact ⟨hcalls, hq⟩
    | next =>
      obtain ⟨hpending, hctx'⟩ := pending_next hctx hp'
      obtain ⟨hcalls, hq⟩ := ih hctx' hrest
      rw [hpending] at hcalls
      exact ⟨hcalls, hq⟩

/-- The counter counts the requests of the connection. -/
theorem counted_step (hcount : p.totalRequests = p.conn.counted) {a : CallStep}
    (hstep : p.step h env a = some q) : q.totalRequests = q.conn.counted := by
  obtain ⟨entry, totalRequests, conn⟩ := p
  obtain ⟨point, requests, outcomes, userData, calls⟩ := conn
  cases a with
  | onData now data =>
    simp only [step] at hstep
    cases point with
    | idle =>
      dsimp only at hstep
      cases hrun : h.running <;> simp only [hrun] at hstep <;> cases hstep <;> exact hcount
    | _ => cases hstep
  | next =>
    set p : OneConnection :=
      ⟨entry, totalRequests, ⟨point, requests, outcomes, userData, calls⟩⟩ with hp
    simp only [hp, step] at hstep
    rw [← hp] at hstep
    cases point with
    | idle => cases hstep
    | entered now data =>
      cases hstep
      exact hcount
    | looking =>
      rcases hup : HttpProtocolHandler.upgradeRequest p.ctx with e | - | req <;>
        rw [hup] at hstep <;> cases hstep <;> exact hcount
    | upgrading req =>
      have hw := HttpProtocolHandler.totalRequests_upgrade env p.ctx req p.world
      dsimp only at hstep
      generalize (HttpProtocolHandler.upgrade env p.ctx req p.world).outcome = outcome at hstep
      cases outcome with
      | raised e =>
        cases hstep
        exact hcount
      | _ =>
        cases hstep
        exact hw.trans hcount
    | looping =>
      dsimp only at hstep
      split at hstep
      · cases hstep
        exact hcount
      · rcases hparse : parseHttpRequest p.ctx {} with e | ⟨- | -, ctx, req⟩ <;>
          rw [hparse] at hstep <;> cases hstep <;> exact hcount
    | parsed req =>
      cases hstep
      exact congrArg Nat.succ hcount
    | counted req =>
      have hw := HttpProtocolHandler.totalRequests_handleRequest h env p.world req
      have hlength : requests.length + 1 = (requests ++ [req]).length := by
        rw [List.length_append, List.length_singleton]
      dsimp only at hstep
      rcases hhandle : h.handleRequest env p.world req with ⟨e | ⟨⟩, w⟩ <;>
        rw [hhandle] at hw hstep <;> cases hstep <;> exact (hw.trans hcount).trans hlength
    | handled =>
      dsimp only at hstep
      split at hstep <;> cases hstep <;> exact hcount
    | leaving outcome =>
      cases hstep
      exact hcount

/-- The counter of a connection alone is the number of its requests. -/
theorem counted_run (hcount : p.totalRequests = p.conn.counted) {steps : List CallStep}
    {os : List Unit} (hrun : (oneConnection h env).run p steps = some (q, os)) :
    q.totalRequests = q.conn.counted := by
  have halways : (oneConnection h env).Always (fun p => p.totalRequests = p.conn.counted) p steps :=
    Machine.always_of_step (fun _ hp => hp) (fun p a r hp hr => by
      obtain ⟨p', hp', rfl⟩ := Option.map_eq_some_iff.mp hr
      exact counted_step hp hp') hcount
  exact halways.of_run hrun

end OneConnection

/-! ## Runs of the shared handler -/

/-- What the calls for a connection have left at the shared handler. -/
def SharedHandler.callLog (connId : κ → UInt64) (s : SharedHandler κ) (c : κ) : CallLog :=
  ⟨(s.connections c).requests, (s.connections c).outcomes, s.contexts.lookup (connId c), s.world c⟩

omit [DecidableEq κ] in
/-- At the beginning there is nothing. -/
theorem shares_init : Shares connId ({} : SharedHandler κ) fun _ => {} :=
  ⟨fun _ => rfl, fun _ => rfl, fun C _ => (Finset.sum_const_zero (s := C)).symm⟩

/-- **A run, and what each connection does in it alone.** -/
theorem alone_run (h : HttpProtocolHandler Unit) (env : Environment Unit)
    (hid : Function.Injective connId) {steps : List (κ × CallStep)} {s : SharedHandler κ}
    {os : List Unit} (hrun : (sharedHandler connId h env).run {} steps = some (s, os)) :
    ∃ f : κ → OneConnection, Shares connId s f
      ∧ ∀ c, (∃ os', (oneConnection h env).run {} (Machine.actionsOf c steps) = some (f c, os'))
        ∧ ∃ alone os', (sharedHandler connId h env).run {} (steps.filter fun a => a.1 = c)
            = some (alone, os')
          ∧ Shares connId alone (Function.update (fun _ => {}) c (f c)) := by
  have hlock := sharedHandler_lockstep h env hid
  obtain ⟨f, hfamily, hs⟩ := hlock.run_right shares_init hrun
  refine ⟨f, hs, fun c => ?_⟩
  obtain ⟨os', hone⟩ := Machine.run_family hfamily c
  obtain ⟨alone, halone, hshares⟩ := hlock.run_left shares_init (Machine.run_family_of_run hone)
  refine ⟨⟨os', hone⟩, alone, os', ?_, hshares⟩
  rw [Machine.filter_eq_map_actionsOf]
  exact halone

/-- **The connections are isolated in a run**: each of them is, with its entry of `contexts_`,
what it is when its own steps are taken alone, and has counted as many requests. What its calls
have left then, once they are over, is what `onData` leaves when it is called with the same data,
one call after the other: the same requests, the same endings, the same calls on the connection,
and the same bytes left over. -/
structure IsolatedRun (connId : κ → UInt64) (h : HttpProtocolHandler Unit)
    (env : Environment Unit) (steps : List (κ × CallStep)) (s : SharedHandler κ)
    (alone : κ → SharedHandler κ) : Prop where
  run_alone : ∀ c, ∃ os, (sharedHandler connId h env).run {} (steps.filter fun a => a.1 = c)
    = some (alone c, os)
  connection_eq : ∀ c, s.connections c = (alone c).connections c
  lookup_eq : ∀ c, s.contexts.lookup (connId c) = (alone c).contexts.lookup (connId c)
  counted_eq : ∀ c, (alone c).totalRequests = (s.connections c).counted
  callLog_eq : ∀ c, (s.connections c).point = .idle → (alone c).callLog connId c
    = CallLog.calls h env {} (chunksOf (Machine.actionsOf c steps))
  totalRequests_eq :
    s.totalRequests = ∑ c ∈ (steps.map Prod.fst).toFinset, (alone c).totalRequests

/-- **Connections are isolated from each other**: in every interleaving of the calls of `OnData` for
connections with distinct ids, each is what it is alone, and `total_requests_` is the sum of what
it would be for each of them. -/
theorem connections_isolated (h : HttpProtocolHandler Unit) (env : Environment Unit)
    (hid : Function.Injective connId) {steps : List (κ × CallStep)} {s : SharedHandler κ}
    {os : List Unit} (hrun : (sharedHandler connId h env).run {} steps = some (s, os)) :
    ∃ alone, IsolatedRun connId h env steps s alone := by
  obtain ⟨f, hs, hf⟩ := alone_run h env hid hrun
  choose hone alone halone using hf
  -- alone, only the connection itself has counted
  have htotal : ∀ c, (alone c).totalRequests = (f c).totalRequests := by
    intro c
    obtain ⟨-, -, hshares⟩ := halone c
    rw [hshares.addsUp {c} fun d hd => ?_, Finset.sum_singleton, Function.update_self]
    dsimp only
    rw [Function.update_of_ne (Finset.notMem_singleton.mp hd)]
  have hconn : ∀ c, s.connections c = (alone c).connections c := by
    intro c
    obtain ⟨-, -, hshares⟩ := halone c
    rw [hs.connection_eq, hshares.connection_self]
  refine ⟨alone, ⟨fun c => ?_, hconn, fun c => ?_, fun c => ?_, fun c hidle => ?_, ?_⟩⟩
  · obtain ⟨os', hrun', -⟩ := halone c
    exact ⟨os', hrun'⟩
  · obtain ⟨-, -, hshares⟩ := halone c
    rw [hs.lookup_eq, hshares.lookup_self]
  · obtain ⟨_, hone'⟩ := hone c
    rw [htotal, hs.connection_eq]
    exact OneConnection.counted_run rfl hone'
  · obtain ⟨-, -, hshares⟩ := halone c
    obtain ⟨_, hone'⟩ := hone c
    obtain ⟨hpending, -⟩ := OneConnection.pending_run (Or.inr rfl) hone'
    have hlog : (alone c).callLog connId c = (f c).callLog := by
      rw [SharedHandler.callLog, hshares.world_eq, hshares.connection_self, hshares.lookup_self,
        htotal]
      rfl
    rw [hs.connection_eq] at hidle
    rw [hlog]
    refine Eq.trans ?_ hpending
    rw [OneConnection.pending, hidle]
    rfl
  · rw [hs.addsUp (steps.map Prod.fst).toFinset fun c hc => ?_]
    · exact Finset.sum_congr rfl fun c _ => (htotal c).symm
    · obtain ⟨_, hone'⟩ := hone c
      rw [Machine.actionsOf_eq_nil fun hmem => hc (List.mem_toFinset.mpr hmem)] at hone'
      simp only [Machine.run_nil, Option.some.injEq, Prod.mk.injEq] at hone'
      dsimp only
      rw [← hone'.1]

/-- A request on one connection, and the beginning of one on another in between. -/
def twoConnections : List (Bool × CallStep) :=
  [(true, .onData 1 (lit "GET /hello HTTP/1.1\r\nHost: x\r\n\r\n")), (true, .next),
    (false, .onData 2 (lit "GET /")), (true, .next), (false, .next), (true, .next), (true, .next),
    (false, .next), (true, .next), (true, .next), (false, .next), (true, .next)]

open HttpProtocolHandler in
/-- The two connections are isolated. -/
theorem connections_isolated_two :
    let connId : Bool → UInt64 := fun c => if c then 1 else 2
    ∃ s os, (sharedHandler connId pageServer logoEnvironment).run {} twoConnections = some (s, os)
      ∧ ∃ alone, IsolatedRun connId pageServer logoEnvironment twoConnections s alone := by
  intro connId
  have hid : Function.Injective connId := by decide
  have hsome : ((sharedHandler connId pageServer logoEnvironment).run {} twoConnections).isSome
      = true := by
    decide +kernel
  obtain ⟨⟨s, os⟩, hrun⟩ := Option.isSome_iff_exists.mp hsome
  exact ⟨s, os, hrun, connections_isolated pageServer logoEnvironment hid hrun⟩
