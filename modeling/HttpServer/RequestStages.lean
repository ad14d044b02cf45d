import HttpServer.HttpProtocolHandler

/-!
# The stages of a request

A request goes through the middlewares in the order in which they were registered, then through
the routing, and then to a handler. Each middleware may rewrite it, so each stage should see what
the stages in front of it have made of it.

`HandleRequest` keeps two requests, the one that came and the one that the middlewares work on.
The handler is given the second. The routing looks at the first, so a middleware that rewrites the
method or the path has no say in it. `composedOf_iff` says for which middlewares that can be
noticed: those that accept a request and leave it with another `routingKey`.
-/

namespace HttpProtocolHandler

variable {σ : Type*}

/-! ## The stages -/

/-- **All middlewares accept**: each is called with what the ones in front of it have left. -/
inductive Accepts : List (Middleware σ) → HttpRequest × HttpResponse × σ →
    HttpRequest × HttpResponse × σ → Prop
  | nil (s : HttpRequest × HttpResponse × σ) : Accepts [] s s
  | cons {middleware : Middleware σ} {middlewares : List (Middleware σ)}
      {req req' : HttpRequest} {resp resp' : HttpResponse} {user user' : σ}
      {t : HttpRequest × HttpResponse × σ}
      (haccept : middleware req resp user = (.ok (true, req', resp'), user'))
      (hrest : Accepts middlewares (req', resp', user') t) :
      Accepts (middleware :: middlewares) (req, resp, user) t

/-- What `HandleRequest` does behind the middlewares. It has one request to route, and one to hand
to the handler. -/
def dispatch (h : HttpProtocolHandler σ) (env : Environment σ) (w : World σ)
    (routed handled : HttpRequest) (resp : HttpResponse) : Except StdException Unit × World σ :=
  let route := matchRoute (h.routesFor routed.method) routed.path
  let handler := route.map Prod.fst
  let pathParams := (route.map Prod.snd).getD ∅
  let served : Except StdException (Bool × HttpResponse) :=
    if route.isNone && routed.method = lit "GET" then
      serveStatic (env.fileSystem w.user) routed.path resp h.staticConfigs
    else .ok (route.isSome, resp)
  match served with
  | .error e => (.error e, w)
  | .ok (false, resp) => (.ok (), sendResponse env w (notFoundResponse resp))
  | .ok (true, resp) =>
    let w := setPathParams env w pathParams
    match callHandler handler handled resp w.user with
    | (.error e, user) => (.error e, { w with user })
    | (.ok resp, user) => (.ok (), sendResponse env { w with user } resp)

/-- **`HandleRequest` is the composition of its stages** for these middlewares and this request.
Where all accept, routing and handler see the request as the middlewares have left it. Where one
rejects, its response is sent, and nothing behind it has a say. -/
structure ComposedOf (middlewares : List (Middleware σ)) (w : World σ) (req : HttpRequest) :
    Prop where
  accepted : ∀ (h : HttpProtocolHandler σ) (env : Environment σ) (mutableReq : HttpRequest)
    (resp : HttpResponse) (user : σ), h.middlewares = middlewares →
    Accepts middlewares (req, {}, w.user) (mutableReq, resp, user) →
    handleRequest h env w req = dispatch h env { w with user } mutableReq mutableReq resp
  rejected : ∀ (h : HttpProtocolHandler σ) (env : Environment σ)
    (before after : List (Middleware σ)) (middleware : Middleware σ) (req' req'' : HttpRequest)
    (resp' resp'' : HttpResponse) (user' user'' : σ), h.middlewares = middlewares →
    middlewares = before ++ middleware :: after →
    Accepts before (req, {}, w.user) (req', resp', user') →
    middleware req' resp' user' = (.ok (false, req'', resp''), user'') →
    handleRequest h env w req = (.ok (), sendResponse env { w with user := user'' } resp'')

/-! ## What the code does -/

/-- The stages of the code. -/
theorem handleRequest_eq (h : HttpProtocolHandler σ) (env : Environment σ) (w : World σ)
    (req : HttpRequest) :
    handleRequest h env w req = match executeMiddlewares h.middlewares req {} w.user with
      | (.error e, user) => (.error e, { w with user })
      | (.ok (false, _, resp), user) => (.ok (), sendResponse env { w with user } resp)
      | (.ok (true, mutableReq, resp), user) =>
        dispatch h env { w with user } req mutableReq resp :=
  rfl

variable {middlewares before : List (Middleware σ)} {middleware : Middleware σ}
  {req mutableReq : HttpRequest} {resp : HttpResponse} {user : σ}
  {s t : HttpRequest × HttpResponse × σ}

/-- What stands behind middlewares that accept is all that is left to do. -/
theorem executeMiddlewares_append (haccept : Accepts before s t) (after : List (Middleware σ)) :
    executeMiddlewares (before ++ after) s.1 s.2.1 s.2.2
      = executeMiddlewares after t.1 t.2.1 t.2.2 := by
  induction haccept with
  | nil s => rfl
  | cons haccept _ ih =>
    rw [List.cons_append, executeMiddlewares, haccept]
    exact ih

theorem executeMiddlewares_of_accepts (haccept : Accepts middlewares s t) :
    executeMiddlewares middlewares s.1 s.2.1 s.2.2 = (.ok (true, t.1, t.2.1), t.2.2) := by
  have happend := executeMiddlewares_append haccept []
  rw [List.append_nil] at happend
  exact happend

/-- **The first that rejects ends it**, with its own response. -/
theorem executeMiddlewares_of_rejects (after : List (Middleware σ)) {req' req'' : HttpRequest}
    {resp' resp'' : HttpResponse} {user' user'' : σ}
    (haccept : Accepts before s (req', resp', user'))
    (hreject : middleware req' resp' user' = (.ok (false, req'', resp''), user'')) :
    executeMiddlewares (before ++ middleware :: after) s.1 s.2.1 s.2.2
      = (.ok (false, req'', resp''), user'') := by
  rw [executeMiddlewares_append haccept, executeMiddlewares, hreject]

/-! ## The part of a request that is routed -/

/-- The route tables. -/
inductive RouteTable
  | get
  | post
  | put
  | delete
  deriving DecidableEq

/-- The table that a method chooses. -/
def tableOf (method : Bytes) : Option RouteTable :=
  if method = lit "GET" then some .get
  else if method = lit "POST" then some .post
  else if method = lit "PUT" then some .put
  else if method = lit "DELETE" then some .delete
  else none

/-- **What the routing looks at**: the table that the method chooses, and the path in it. -/
def routingKey (req : HttpRequest) : Option (RouteTable × Bytes) :=
  (tableOf req.method).map fun table => (table, req.path)

/-- The routes of a table. -/
def routesOf (h : HttpProtocolHandler σ) : RouteTable → List (RouteEntry σ)
  | .get => h.getRoutes
  | .post => h.postRoutes
  | .put => h.putRoutes
  | .delete => h.deleteRoutes

theorem routesFor_eq (h : HttpProtocolHandler σ) (method : Bytes) :
    h.routesFor method = match tableOf method with
      | none => []
      | some table => h.routesOf table := by
  unfold routesFor tableOf
  split_ifs <;> rfl

theorem eq_get_iff (method : Bytes) : method = lit "GET" ↔ tableOf method = some .get := by
  unfold tableOf
  constructor
  · intro hget
    rw [if_pos hget]
  · intro htable
    by_contra hget
    rw [if_neg hget] at htable
    split_ifs at htable <;> cases htable

/-- **The routing looks at the key only.** -/
theorem dispatch_congr (h : HttpProtocolHandler σ) (env : Environment σ) (w : World σ)
    {routed routed' : HttpRequest} (hkey : routingKey routed = routingKey routed')
    (handled : HttpRequest) (resp : HttpResponse) :
    dispatch h env w routed handled resp = dispatch h env w routed' handled resp := by
  unfold routingKey at hkey
  unfold dispatch
  simp only [routesFor_eq, eq_get_iff]
  cases htable : tableOf routed.method with
  | none =>
    rw [htable, Option.map_none] at hkey
    rw [Option.map_eq_none_iff.mp hkey.symm]
    rfl
  | some table =>
    rw [htable, Option.map_some] at hkey
    obtain ⟨table', htable', hpair⟩ := Option.map_eq_some_iff.mp hkey.symm
    obtain ⟨rfl, hpath⟩ := Prod.mk.inj hpair
    rw [htable', hpath]

/-! ## A server that tells keys apart -/

/-- A server with one route, whose handler throws. -/
def probe (middlewares : List (Middleware σ)) (table : RouteTable) (path : Bytes) :
    HttpProtocolHandler σ :=
  let routes : RouteTable → List (RouteEntry σ) := fun table' =>
    if table' = table then
      [{ pattern := path
         handler := fun _ _ user => (.error (.userException 0), user)
         regex := fun path' => if path' = path then some [] else none
         paramNames := [] }]
    else []
  { getRoutes := routes .get
    postRoutes := routes .post
    putRoutes := routes .put
    deleteRoutes := routes .delete
    middlewares }

theorem routesOf_probe (table table' : RouteTable) (path : Bytes) :
    (probe middlewares table path).routesOf table' = if table' = table then
      [{ pattern := path
         handler := fun _ _ user => (.error (.userException 0), user)
         regex := fun path' => if path' = path then some [] else none
         paramNames := [] }]
    else [] := by
  cases table' <;> rfl

/-- **The probe throws on its own key**, and answers every other. -/
theorem dispatch_probe (table : RouteTable) (path : Bytes) (env : Environment σ) (w : World σ)
    (routed handled : HttpRequest) (resp : HttpResponse) :
    (dispatch (probe middlewares table path) env w routed handled resp).1
      = if routingKey routed = some (table, path) then .error (.userException 0) else .ok () := by
  unfold dispatch
  rw [routesFor_eq, routingKey]
  cases htable : tableOf routed.method with
  | none =>
    have hget : ¬ routed.method = lit "GET" := by
      rw [eq_get_iff, htable]
      nofun
    simp [matchRoute, hget]
  | some table' =>
    simp only [routesOf_probe, Option.map_some, Option.some.injEq, Prod.mk.injEq]
    by_cases hkey : table' = table ∧ routed.path = path
    · obtain ⟨rfl, rfl⟩ := hkey
      simp [matchRoute, callHandler, setPathParams]
    · have hnone : matchRoute (if table' = table then
          [{ pattern := path
             handler := fun _ _ user => (.error (.userException 0), user)
             regex := fun path' => if path' = path then some [] else none
             paramNames := [] }]
          else ([] : List (RouteEntry σ))) routed.path = none := by
        by_cases htable' : table' = table
        · have hpath : ¬ routed.path = path := fun hpath => hkey ⟨htable', hpath⟩
          simp [matchRoute, htable', hpath]
        · simp [matchRoute, htable']
      have hstatic : (probe middlewares table path : HttpProtocolHandler σ).staticConfigs = [] :=
        rfl
      rw [hnone, if_neg hkey, hstatic]
      by_cases hget : routed.method = lit "GET"
      · simp [hget, serveStatic]
      · simp [hget]

/-! ## When the code is the composition of its stages -/

/-- **What was accepted has the key it came with.** The middlewares that accept a request leave
its path alone, and do not give it a method of another table. -/
def KeepsKey (middlewares : List (Middleware σ)) (w : World σ) (req : HttpRequest) : Prop :=
  ∀ mutableReq resp user, Accepts middlewares (req, {}, w.user) (mutableReq, resp, user) →
    routingKey mutableReq = routingKey req

/-- **`HandleRequest` is the composition of its stages exactly where the middlewares leave the
routing key alone**, or reject or throw. -/
theorem composedOf_iff (middlewares : List (Middleware σ)) (w : World σ) (req : HttpRequest) :
    ComposedOf middlewares w req ↔ KeepsKey middlewares w req := by
  constructor
  · intro hcomposed mutableReq resp user haccept
    have hprobe : ∀ table path, routingKey mutableReq = some (table, path)
        ↔ routingKey req = some (table, path) := by
      intro table path
      let env : Environment σ := ⟨.arbitrary, fun _ => logoSystem, fun _ _ => true⟩
      have hreq := hcomposed.accepted (probe middlewares table path) env _ _ _ rfl haccept
      rw [handleRequest_eq] at hreq
      have hrun : executeMiddlewares (probe middlewares table path).middlewares req {} w.user
          = (.ok (true, mutableReq, resp), user) := executeMiddlewares_of_accepts haccept
      rw [hrun] at hreq
      have hfirst := congrArg Prod.fst hreq
      dsimp only at hfirst
      rw [dispatch_probe, dispatch_probe] at hfirst
      by_cases hleft : routingKey mutableReq = some (table, path)
      · rw [if_pos hleft] at hfirst
        refine iff_of_true hleft ?_
        by_contra hright
        rw [if_neg hright] at hfirst
        cases hfirst
      · rw [if_neg hleft] at hfirst
        refine iff_of_false hleft fun hright => ?_
        rw [if_pos hright] at hfirst
        cases hfirst
    exact Option.ext fun key => hprobe key.1 key.2
  · intro hkeep
    constructor
    · intro h env mutableReq resp user hmw haccept
      subst hmw
      have hrun := executeMiddlewares_of_accepts haccept
      rw [handleRequest_eq, hrun]
      exact (dispatch_congr h env _ (hkeep _ _ _ haccept) mutableReq resp).symm
    · intro h env before after middleware req' req'' resp' resp'' user' user'' hmw hsplit
        haccept hreject
      have hrun := executeMiddlewares_of_rejects after haccept hreject
      rw [← hsplit, ← hmw] at hrun
      rw [handleRequest_eq, hrun]

/-! ## A middleware that rewrites the path -/

/-- Requests for the old address go to the page. -/
def redirect : Middleware Unit := fun req resp user =>
  (.ok (true, { req with path := lit "/hello" }, resp), user)

def getOld : HttpRequest :=
  { method := lit "GET", path := lit "/old", version := lit "HTTP/1.1" }

/-- A request for the old address is not routed to the page. -/
theorem not_composedOf_redirect :
    routingKey { getOld with path := lit "/hello" } = some (.get, lit "/hello")
      ∧ routingKey getOld = some (.get, lit "/old")
      ∧ ¬ ComposedOf [redirect] ⟨(), ∅, [], 0⟩ getOld := by
  have hnew : routingKey { getOld with path := lit "/hello" } = some (.get, lit "/hello") := by
    decide +kernel
  have hold : routingKey getOld = some (.get, lit "/old") := by decide +kernel
  refine ⟨hnew, hold, fun hcomposed => ?_⟩
  have haccept : Accepts [redirect] (getOld, {}, ())
      ({ getOld with path := lit "/hello" }, {}, ()) := .cons rfl (.nil _)
  have hreq := hcomposed.accepted (probe [redirect] .get (lit "/hello")) logoEnvironment _ _ _ rfl
    haccept
  rw [handleRequest_eq] at hreq
  have hrun : executeMiddlewares (probe [redirect] .get (lit "/hello")).middlewares getOld {} ()
      = (.ok (true, { getOld with path := lit "/hello" }, {}), ()) := rfl
  rw [hrun] at hreq
  have hfirst := congrArg Prod.fst hreq
  dsimp only at hfirst
  rw [dispatch_probe, dispatch_probe, hnew, if_pos rfl, hold, if_neg (by decide +kernel)] at hfirst
  cases hfirst

end HttpProtocolHandler
