import HttpServer.StaticFile

/-!
# Handling requests

`HandleRequest` of `application/http/http_protocol_handler.cpp` with all it calls: the
middlewares, the route tables, the static files and `SendResponse`.

What the server is configured with – middlewares and handlers – are functions that may
keep a state of their own, of any type, and may throw. What it does to the connection
is written into a `World`: the user data of the connection and the calls it made.

A request has four ways to go, and `expectedResponse` says which response belongs to
each. Three of them are as they should be. A request that a static file answers comes
to the common end without a handler, and calling the empty `std::function` there
throws: `handleRequest_answers_iff`.
-/

/-- A handler: it may change the response and the state of the callbacks, or throw. -/
abbrev HttpHandler (σ : Type*) :=
  HttpRequest → HttpResponse → σ → Except StdException HttpResponse × σ

/-- A middleware: its verdict, and the request and the response behind the references. -/
abbrev Middleware (σ : Type*) :=
  HttpRequest → HttpResponse → σ → Except StdException (Bool × HttpRequest × HttpResponse) × σ

/-- `RouteEntry`. The regular expression is the function that `std::regex_match` computes
with it: the captured groups if the path matches. -/
structure RouteEntry (σ : Type*) where
  pattern : Bytes
  handler : HttpHandler σ
  regex : Bytes → Option (List Bytes)
  paramNames : List Bytes

/-- `StaticFileConfig`. -/
structure StaticFileConfig where
  urlPrefix : Bytes
  rootDir : Bytes

/-- `HttpProtocolHandler`: what it was configured with. -/
structure HttpProtocolHandler (σ : Type*) where
  running : Bool := true
  getRoutes : List (RouteEntry σ) := []
  postRoutes : List (RouteEntry σ) := []
  putRoutes : List (RouteEntry σ) := []
  deleteRoutes : List (RouteEntry σ) := []
  staticConfigs : List StaticFileConfig := []
  middlewares : List (Middleware σ) := []

/-- What the server runs in: the order in which maps are iterated over, the file
system as the state of the callbacks leaves it, and whether the handshake response of
a WebSocket session can be sent. -/
structure Environment (σ : Type*) where
  order : IterationOrder
  fileSystem : σ → FileSystem
  handshakeSent : Bytes → σ → Bool

/-- The calls the server makes on a connection. -/
inductive ConnCall
  /-- `SendAsync` -/
  | sendAsync (data : Bytes)
  /-- The response to a WebSocket handshake with this key, sent at once. -/
  | handshake (key : Bytes)
  /-- `SetDataCallback`, to a WebSocket session -/
  | setDataCallback
  /-- `Close` -/
  | close
  deriving DecidableEq

/-- **What a request can change**: the state of the callbacks, the user data of the
connection, the calls made on it so far, and the request counter. -/
structure World (σ : Type*) where
  user : σ
  userData : StringMap := ∅
  calls : List ConnCall := []
  totalRequests : ℕ := 0

namespace HttpProtocolHandler

variable {σ : Type*}

/-! ## The source -/

/-- `ExecuteMiddlewares`. -/
def executeMiddlewares : List (Middleware σ) → HttpRequest → HttpResponse → σ →
    Except StdException (Bool × HttpRequest × HttpResponse) × σ
  | [], req, resp, user => (.ok (true, req, resp), user)
  | middleware :: middlewares, req, resp, user =>
    match middleware req resp user with
    | (.error e, user) => (.error e, user)
    | (.ok (false, req, resp), user) => (.ok (false, req, resp), user)
    | (.ok (true, req, resp), user) => executeMiddlewares middlewares req resp user

/-- `MatchRoute`: the handler of the first route that matches, and the parameters,
each name with the group at its place. -/
def matchRoute (routes : List (RouteEntry σ)) (path : Bytes) :
    Option (HttpHandler σ × StringMap) :=
  routes.findSome? fun route =>
    (route.regex path).map fun groups =>
      (route.handler,
        (route.paramNames.zip groups).foldl (fun params p => params.insert p.1 p.2) ∅)

/-- The table that `HandleRequest` chooses for a method. -/
def routesFor (h : HttpProtocolHandler σ) (method : Bytes) : List (RouteEntry σ) :=
  if method = lit "GET" then h.getRoutes
  else if method = lit "POST" then h.postRoutes
  else if method = lit "PUT" then h.putRoutes
  else if method = lit "DELETE" then h.deleteRoutes
  else []

/-- The loop over the static configurations: whether one of them answered, and the
response behind the reference. -/
def serveStatic (fs : FileSystem) (path : Bytes) (resp : HttpResponse) :
    List StaticFileConfig → Except StdException (Bool × HttpResponse)
  | [] => .ok (false, resp)
  | config :: configs =>
    if Search.find config.urlPrefix path = some 0 then
      match handleStaticFile fs config.urlPrefix config.rootDir path resp with
      | .error e => .error e
      | .ok (true, resp) => .ok (true, resp)
      | .ok (false, resp) => serveStatic fs path resp configs
    else serveStatic fs path resp configs

/-- `SendResponse`. -/
def sendResponse (env : Environment σ) (w : World σ) (resp : HttpResponse) : World σ :=
  { w with calls := w.calls ++ [.sendAsync (resp.toString env.order)] }

/-- The loop that passes the parameters of the path to the connection. -/
def setPathParams (env : Environment σ) (w : World σ) (params : StringMap) : World σ :=
  { w with
    userData := (env.order.entries params).entries.foldl
      (fun data p => data.insert (lit "param:" ++ p.1) p.2) w.userData }

/-- A `std::function` is called; the empty one throws. -/
def callHandler (handler : Option (HttpHandler σ)) (req : HttpRequest) (resp : HttpResponse)
    (user : σ) : Except StdException HttpResponse × σ :=
  match handler with
  | none => (.error .badFunctionCall, user)
  | some handler => handler req resp user

/-- `HandleRequest`: whether it returned, and the world it leaves. Routing looks at the
request as it came, the handler at the one the middlewares have made of it. -/
def handleRequest (h : HttpProtocolHandler σ) (env : Environment σ) (w : World σ)
    (req : HttpRequest) : Except StdException Unit × World σ :=
  match executeMiddlewares h.middlewares req {} w.user with
  | (.error e, user) => (.error e, { w with user })
  | (.ok (false, _, resp), user) => (.ok (), sendResponse env { w with user } resp)
  | (.ok (true, mutableReq, resp), user) =>
    let w := { w with user }
    let route := matchRoute (h.routesFor req.method) req.path
    let handler := route.map Prod.fst
    let pathParams := (route.map Prod.snd).getD ∅
    let served : Except StdException (Bool × HttpResponse) :=
      if route.isNone && req.method = lit "GET" then
        serveStatic (env.fileSystem user) req.path resp h.staticConfigs
      else .ok (route.isSome, resp)
    match served with
    | .error e => (.error e, w)
    | .ok (false, resp) =>
      let resp := (resp.setStatus 404 (lit "Not Found")).setBody (lit "404 - Page Not Found")
      (.ok (), sendResponse env w resp)
    | .ok (true, resp) =>
      let w := setPathParams env w pathParams
      match callHandler handler mutableReq resp w.user with
      | (.error e, user) => (.error e, { w with user })
      | (.ok resp, user) => (.ok (), sendResponse env { w with user } resp)

/-! ## What the answer should be -/

/-- The static file that answers a path: that of the first configuration whose prefix
fits and whose file can be opened. -/
def staticFile (fs : FileSystem) (path : Bytes) (configs : List StaticFileConfig) :
    Option (Bytes × Bytes) :=
  configs.findSome? fun config =>
    if config.urlPrefix.isPrefixOf path then
      match openStaticFile fs config.urlPrefix config.rootDir path with
      | .ok file => file
      | .error _ => none
    else none

/-- The response with the content of a file. -/
def fileResponse (resp : HttpResponse) (file : Bytes × Bytes) : HttpResponse :=
  (resp.setBody file.2).setContentType (getMimeType (extension file.1))

def notFoundResponse (resp : HttpResponse) : HttpResponse :=
  (resp.setStatus 404 (lit "Not Found")).setBody (lit "404 - Page Not Found")

/-- **The response a request is to be answered with**, unless a callback throws: that
of the middleware that rejects it, or that of the handler whose route matches, or the
static file, or *not found*. -/
def expectedResponse (h : HttpProtocolHandler σ) (env : Environment σ) (w : World σ)
    (req : HttpRequest) : Option HttpResponse :=
  match executeMiddlewares h.middlewares req {} w.user with
  | (.error _, _) => none
  | (.ok (false, _, resp), _) => some resp
  | (.ok (true, mutableReq, resp), user) =>
    match matchRoute (h.routesFor req.method) req.path with
    | some (handler, _) =>
      match (handler mutableReq resp user).1 with
      | .ok resp => some resp
      | .error _ => none
    | none =>
      match staticFile (env.fileSystem user) req.path h.staticConfigs with
      | some file => if req.method = lit "GET" then some (fileResponse resp file)
        else some (notFoundResponse resp)
      | none => some (notFoundResponse resp)

/-- **The request is answered**: `handleRequest` returns, and the one call it has made
on the connection sends the expected response. -/
def Answered (h : HttpProtocolHandler σ) (env : Environment σ) (w : World σ)
    (req : HttpRequest) : Prop :=
  ∃ resp w', expectedResponse h env w req = some resp
    ∧ handleRequest h env w req = (.ok (), w')
    ∧ w'.calls = w.calls ++ [.sendAsync (resp.toString env.order)]

/-- The handlers of all routes return. -/
def HandlersReturn (h : HttpProtocolHandler σ) : Prop :=
  ∀ route ∈ h.getRoutes ++ h.postRoutes ++ h.putRoutes ++ h.deleteRoutes,
    ∀ req resp user, ∃ resp' user', route.handler req resp user = (.ok resp', user')

/-- A middleware throws on the request. -/
def MiddlewareThrows (h : HttpProtocolHandler σ) (w : World σ) (req : HttpRequest) : Prop :=
  ∃ e user, executeMiddlewares h.middlewares req {} w.user = (.error e, user)

/-- **The request comes to a static file**: the middlewares accept it, it is a `GET`
that no route matches, and a static configuration has a file for it. -/
def ComesToFile (h : HttpProtocolHandler σ) (env : Environment σ) (w : World σ)
    (req : HttpRequest) : Prop :=
  ∃ mutableReq resp user file,
    executeMiddlewares h.middlewares req {} w.user = (.ok (true, mutableReq, resp), user)
    ∧ req.method = lit "GET" ∧ matchRoute h.getRoutes req.path = none
    ∧ staticFile (env.fileSystem user) req.path h.staticConfigs = some file

/-! ## Who answers -/

/-- The loop over the static configurations finds the file that is to answer. -/
theorem serveStatic_eq (fs : FileSystem) (path : Bytes) (resp : HttpResponse)
    (configs : List StaticFileConfig) :
    serveStatic fs path resp configs = .ok (match staticFile fs path configs with
      | none => (false, resp)
      | some file => (true, fileResponse resp file)) := by
  induction configs with
  | nil => rfl
  | cons config configs ih =>
    rw [serveStatic, staticFile, List.findSome?_cons]
    by_cases hprefix : config.urlPrefix <+: path
    · rw [if_pos (Search.find_of_prefix hprefix), if_pos (List.isPrefixOf_iff_prefix.mpr hprefix),
        handleStaticFile]
      obtain ⟨file, hfile⟩ := openStaticFile_ok fs config.rootDir hprefix
      rw [hfile]
      cases file with
      | none => exact ih
      | some file => rfl
    · rw [if_neg (fun hc => hprefix (Search.prefix_drop_of_find hc)),
        if_neg (fun hc => hprefix (List.isPrefixOf_iff_prefix.mp hc))]
      exact ih

/-- A handler that `matchRoute` returns is that of a route of the table. -/
theorem handler_of_matchRoute {routes : List (RouteEntry σ)} {path : Bytes}
    {handler : HttpHandler σ} {params : StringMap}
    (h : matchRoute routes path = some (handler, params)) :
    ∃ route ∈ routes, route.handler = handler := by
  obtain ⟨route, hmem, hroute⟩ := List.exists_of_findSome?_eq_some h
  obtain ⟨groups, -, he⟩ := Option.map_eq_some_iff.mp hroute
  exact ⟨route, hmem, congrArg Prod.fst he⟩

theorem mem_of_mem_routesFor (h : HttpProtocolHandler σ) {method : Bytes} {route : RouteEntry σ}
    (hmem : route ∈ h.routesFor method) :
    route ∈ h.getRoutes ++ h.postRoutes ++ h.putRoutes ++ h.deleteRoutes := by
  unfold routesFor at hmem
  simp only [List.mem_append]
  split_ifs at hmem
  · exact Or.inl (Or.inl (Or.inl hmem))
  · exact Or.inl (Or.inl (Or.inr hmem))
  · exact Or.inl (Or.inr hmem)
  · exact Or.inr hmem
  · cases hmem

variable {h : HttpProtocolHandler σ} {env : Environment σ} {w : World σ}
  {req mutableReq : HttpRequest}
  {resp : HttpResponse} {user : σ}

/-- A route answers. -/
theorem handleRequest_of_route {handler : HttpHandler σ} {params : StringMap} {resp' : HttpResponse}
    {user' : σ}
    (hmw : executeMiddlewares h.middlewares req {} w.user = (.ok (true, mutableReq, resp), user))
    (hroute : matchRoute (h.routesFor req.method) req.path = some (handler, params))
    (hcall : handler mutableReq resp user = (.ok resp', user')) :
    handleRequest h env w req
      = (.ok (), sendResponse env
          { setPathParams env { w with user } params with user := user' } resp') := by
  simp [handleRequest, hmw, hroute, setPathParams, callHandler, hcall]

/-- Neither a route nor a static file answers. -/
theorem handleRequest_of_none
    (hmw : executeMiddlewares h.middlewares req {} w.user = (.ok (true, mutableReq, resp), user))
    (hroute : matchRoute (h.routesFor req.method) req.path = none)
    (hfile : req.method = lit "GET" →
      staticFile (env.fileSystem user) req.path h.staticConfigs = none) :
    handleRequest h env w req
      = (.ok (), sendResponse env { w with user } (notFoundResponse resp)) := by
  by_cases hget : req.method = lit "GET"
  · have hnone := hfile hget
    rw [hget] at hroute
    simp [handleRequest, hmw, hroute, hget, serveStatic_eq, hnone, notFoundResponse]
  · simp [handleRequest, hmw, hroute, hget, notFoundResponse]

/-- **A static file comes to the common end without a handler**, and the call throws
before anything has been sent. -/
theorem handleRequest_of_file {file : Bytes × Bytes}
    (hmw : executeMiddlewares h.middlewares req {} w.user = (.ok (true, mutableReq, resp), user))
    (hget : req.method = lit "GET") (hroute : matchRoute (h.routesFor req.method) req.path = none)
    (hfile : staticFile (env.fileSystem user) req.path h.staticConfigs = some file) :
    (handleRequest h env w req).1 = .error .badFunctionCall
      ∧ (handleRequest h env w req).2.calls = w.calls := by
  rw [hget] at hroute
  simp [handleRequest, hmw, hroute, hget, serveStatic_eq, hfile, callHandler, setPathParams]

/-- **What a request leaves alone.** `handleRequest` reads neither the calls that have been made
nor the counter. It leaves the counter as it is, and adds one call that sends if it returns, and
none if it throws. -/
theorem handleRequest_frame (h : HttpProtocolHandler σ) (env : Environment σ) (w : World σ)
    (req : HttpRequest) :
    ∃ (r : Except StdException Unit) (user : σ) (userData : StringMap) (sent : List ConnCall),
      (∀ calls n, handleRequest h env { w with calls, totalRequests := n } req
        = (r, ⟨user, userData, calls ++ sent, n⟩))
      ∧ match r with
        | .ok () => ∃ text, sent = [.sendAsync text]
        | .error _ => sent = [] := by
  obtain ⟨user, userData, calls, n⟩ := w
  simp only [handleRequest]
  rcases executeMiddlewares h.middlewares req {} user
    with ⟨e | ⟨accepted, mutableReq, resp⟩, user⟩
  · exact ⟨.error e, user, userData, [], fun calls n => by rw [List.append_nil], rfl⟩
  cases accepted with
  | false => exact ⟨.ok (), user, userData, _, fun calls n => rfl, _, rfl⟩
  | true =>
    dsimp only
    generalize (if (matchRoute (h.routesFor req.method) req.path).isNone && req.method = lit "GET"
      then serveStatic (env.fileSystem user) req.path resp h.staticConfigs
      else .ok ((matchRoute (h.routesFor req.method) req.path).isSome, resp)) = served
    rcases served with e | ⟨found, resp⟩
    · exact ⟨.error e, user, userData, [], fun calls n => by rw [List.append_nil], rfl⟩
    cases found with
    | false => exact ⟨.ok (), user, userData, _, fun calls n => rfl, _, rfl⟩
    | true =>
      simp only [setPathParams]
      rcases callHandler ((matchRoute (h.routesFor req.method) req.path).map Prod.fst) mutableReq
        resp user with ⟨e | resp, user⟩
      · exact ⟨.error e, user, _, [], fun calls n => by rw [List.append_nil], rfl⟩
      · exact ⟨.ok (), user, _, _, fun calls n => rfl, _, rfl⟩

/-- **One response or an exception.** `handleRequest` makes one call on the connection, and
none where it throws. -/
theorem handleRequest_calls (h : HttpProtocolHandler σ) (env : Environment σ) (w : World σ)
    (req : HttpRequest) :
    match handleRequest h env w req with
    | (.ok (), w') => ∃ text, w'.calls = w.calls ++ [.sendAsync text]
    | (.error _, w') => w'.calls = w.calls := by
  obtain ⟨r, user, userData, sent, hframe, hsent⟩ := handleRequest_frame h env w req
  have hself : handleRequest h env w req = _ := hframe w.calls w.totalRequests
  rw [hself]
  cases r with
  | error e =>
    show w.calls ++ sent = w.calls
    rw [show sent = [] from hsent, List.append_nil]
  | ok u =>
    obtain ⟨text, rfl⟩ := hsent
    exact ⟨text, rfl⟩

/-- **Exactly when a request is answered as it should be**, by handlers that do not
throw: unless a middleware throws or the request comes to a static file. -/
theorem handleRequest_answers_iff (h : HttpProtocolHandler σ) (hreturn : h.HandlersReturn)
    (env : Environment σ) (w : World σ) (req : HttpRequest) :
    Answered h env w req ↔ ¬ MiddlewareThrows h w req ∧ ¬ ComesToFile h env w req := by
  unfold Answered MiddlewareThrows ComesToFile expectedResponse
  rcases hmw : executeMiddlewares h.middlewares req {} w.user
    with ⟨e | ⟨accepted, mutableReq, resp⟩, user⟩
  · simp
  cases accepted with
  | false => simp [handleRequest, hmw, sendResponse]
  | true =>
    have hno : ¬ ∃ e user', ((Except.ok (true, mutableReq, resp), user)
        : Except StdException (Bool × HttpRequest × HttpResponse) × σ) = (.error e, user') := by simp
    cases hroute : matchRoute (h.routesFor req.method) req.path with
    | some r =>
      obtain ⟨handler, params⟩ := r
      obtain ⟨route, hmem, rfl⟩ := handler_of_matchRoute hroute
      obtain ⟨resp', user', hcall⟩ :=
          hreturn route (h.mem_of_mem_routesFor hmem) mutableReq resp user
      refine iff_of_true ⟨resp', _, ?_, handleRequest_of_route hmw hroute hcall, rfl⟩ ⟨hno, ?_⟩
      · simp [hcall]
      · rintro ⟨_, _, _, _, -, hget, hnone, -⟩
        rw [routesFor, if_pos hget, hnone] at hroute
        cases hroute
    | none =>
      by_cases hget : req.method = lit "GET"
      · have hroutes : h.routesFor req.method = h.getRoutes := by rw [routesFor, if_pos hget]
        cases hfile : staticFile (env.fileSystem user) req.path h.staticConfigs with
        | none =>
          refine iff_of_true ⟨notFoundResponse resp, _, ?_,
            handleRequest_of_none hmw hroute (fun _ => hfile), rfl⟩ ⟨hno, ?_⟩
          · simp [hfile]
          · rintro ⟨_, _, _, file, he, -, -, hsome⟩
            cases he
            rw [hfile] at hsome
            cases hsome
        | some file =>
          refine iff_of_false ?_ fun hc =>
            hc.2 ⟨mutableReq, resp, user, file, rfl, hget, hroutes ▸ hroute, hfile⟩
          rintro ⟨_, _, -, hreq, -⟩
          have hthrow := (handleRequest_of_file hmw hget hroute hfile).1
          rw [hreq] at hthrow
          cases hthrow
      · refine iff_of_true ⟨notFoundResponse resp, _, ?_,
          handleRequest_of_none hmw hroute (fun hg => absurd hg hget), rfl⟩ ⟨hno, ?_⟩
        · cases hfile : staticFile (env.fileSystem user) req.path h.staticConfigs <;>
            simp [hget, hfile]
        · rintro ⟨_, _, _, _, -, hg, -⟩
          exact hget hg

/-! ## A server with one page and one directory -/

/-- A server whose root directory is also served under a prefix. -/
def pageServer : HttpProtocolHandler Unit where
  getRoutes :=
    [{ pattern := lit "/hello"
       handler := fun _ resp user => (.ok (resp.setBody (lit "hello")), user)
       regex := fun path => if path = lit "/hello" then some [] else none
       paramNames := [] }]
  staticConfigs := [⟨lit "/files", lit "/srv"⟩]

/-- A file system with one file. -/
def logoSystem : FileSystem where
  node p :=
    if p = [] ∨ p = [lit "srv"] then some .directory
    else if p = [lit "srv", lit "logo.svg"] then some (.regular (lit "<svg/>") true)
    else none
  cwd := []

noncomputable def logoEnvironment : Environment Unit :=
  ⟨.arbitrary, fun _ => logoSystem, fun _ _ => true⟩

def getLogo : HttpRequest :=
  { method := lit "GET", path := lit "/files/logo.svg", version := lit "HTTP/1.1" }

/-- The request for the logo finds the file, throws, and is not answered. -/
theorem getLogo_not_answered :
    (handleRequest pageServer logoEnvironment ⟨(), ∅, [], 0⟩ getLogo).1 = .error .badFunctionCall
      ∧ (handleRequest pageServer logoEnvironment ⟨(), ∅, [], 0⟩ getLogo).2.calls = []
      ∧ ¬ Answered pageServer logoEnvironment ⟨(), ∅, [], 0⟩ getLogo := by
  have hfile : staticFile (logoEnvironment.fileSystem ()) getLogo.path pageServer.staticConfigs
      = some (lit "/srv/logo.svg", lit "<svg/>") := by
    show staticFile logoSystem (lit "/files/logo.svg") [⟨lit "/files", lit "/srv"⟩] = _
    decide +kernel
  have hmw : executeMiddlewares pageServer.middlewares getLogo {} ()
      = (.ok (true, getLogo, {}), ()) := rfl
  have hget : getLogo.method = lit "GET" := rfl
  have hroute : matchRoute (pageServer.routesFor getLogo.method) getLogo.path = none := rfl
  obtain ⟨hthrow, hcalls⟩ := handleRequest_of_file (w := ⟨(), ∅, [], 0⟩) hmw hget hroute hfile
  refine ⟨hthrow, hcalls, ?_⟩
  rintro ⟨_, _, -, hreq, -⟩
  rw [hreq] at hthrow
  cases hthrow

/-- The criterion on that request. -/
theorem handleRequest_answers_iff_getLogo :
    Answered pageServer logoEnvironment ⟨(), ∅, [], 0⟩ getLogo
      ↔ ¬ MiddlewareThrows pageServer ⟨(), ∅, [], 0⟩ getLogo
        ∧ ¬ ComesToFile pageServer logoEnvironment ⟨(), ∅, [], 0⟩ getLogo :=
  handleRequest_answers_iff pageServer (by
    intro route hmem req resp user
    simp only [pageServer, List.append_nil, List.mem_singleton] at hmem
    subst hmem
    exact ⟨_, _, rfl⟩) logoEnvironment _ getLogo

end HttpProtocolHandler
