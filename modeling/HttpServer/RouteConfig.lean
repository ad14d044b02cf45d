import HttpServer.Machine
import HttpServer.RequestStages
import HttpServer.Routing

/-!
# The routes of the server

`HttpRouteConfig::RegisterRoutes` of `application/http/http_route_config.cpp`, with `Register` of
the two objects whose member functions answer most of the requests.

The handlers that these objects register hold nothing but `this`. `RegisterRoutes` has both
objects among its local variables, and they are destroyed when it returns, while the server, which
has two such objects of its own, registers nothing with them. So whatever the member functions
would do, a request to the API or for the page of the administrator calls one of a destroyed
object, and what becomes of the server then is undefined. The other requests cannot bring this
about: `configured_requests` says what is left for them.
-/

/-! ## Objects and their handlers -/

/-- **What the handlers of a server share**: the objects that have been created and those that
still exist, what the objects and the database hold, and whether a destroyed object has been used,
which is kept for the results. -/
structure ServerState (δ : Type*) where
  created : ℕ := 0
  existing : List ℕ := []
  data : δ
  undefined : Bool := false

namespace ServerState

variable {δ : Type*} (s : ServerState δ)

/-- A constructor runs. -/
def create : ℕ × ServerState δ :=
  (s.created, { s with created := s.created + 1, existing := s.created :: s.existing })

/-- A destructor runs. -/
def destroy (object : ℕ) : ServerState δ := { s with existing := s.existing.erase object }

end ServerState

/-- The member functions of `SpeedTestApi` and `AdminPageHandler` that handlers call. -/
structure MemberFunctions (δ : Type*) where
  handleGetStats : HttpHandler δ
  handleGetDevices : HttpHandler δ
  handleGetHistory : HttpHandler δ
  handleSaveRecord : HttpHandler δ
  handleAdminPage : HttpHandler δ

/-- A handler that holds `this`. The call of a member function of a destroyed object may do
anything, which is `stray`. -/
def callMember {δ : Type*} (stray : HttpHandler (ServerState δ)) (object : ℕ)
    (member : HttpHandler δ) : HttpHandler (ServerState δ) := fun req resp s =>
  if object ∈ s.existing then
    let (result, data) := member req resp s.data
    (result, { s with data })
  else
    let (result, s) := stray req resp s
    (result, { s with undefined := true })

/-! ## The source -/

namespace HttpProtocolHandler

variable {σ : Type*} (t : RegexTraits) (h : HttpProtocolHandler σ)

/-- `Get`. -/
def get (path : Bytes) (handler : HttpHandler σ) : Except RegexError (HttpProtocolHandler σ) :=
  (createRouteEntry t path handler).map fun entry =>
    { h with getRoutes := h.getRoutes ++ [entry] }

/-- `Post`. -/
def post (path : Bytes) (handler : HttpHandler σ) : Except RegexError (HttpProtocolHandler σ) :=
  (createRouteEntry t path handler).map fun entry =>
    { h with postRoutes := h.postRoutes ++ [entry] }

/-- `Put`. -/
def put (path : Bytes) (handler : HttpHandler σ) : Except RegexError (HttpProtocolHandler σ) :=
  (createRouteEntry t path handler).map fun entry =>
    { h with putRoutes := h.putRoutes ++ [entry] }

/-- `Delete`. -/
def delete (path : Bytes) (handler : HttpHandler σ) :
    Except RegexError (HttpProtocolHandler σ) :=
  (createRouteEntry t path handler).map fun entry =>
    { h with deleteRoutes := h.deleteRoutes ++ [entry] }

/-- The four of them, by the table that they add to. -/
def register : RouteTable → Bytes → HttpHandler σ → Except RegexError (HttpProtocolHandler σ)
  | .get => h.get t
  | .post => h.post t
  | .put => h.put t
  | .delete => h.delete t

/-- Routes are registered in one of the tables, one after the other. -/
def registerAll (table : RouteTable) :
    HttpProtocolHandler σ → List (Bytes × HttpHandler σ) →
    Except RegexError (HttpProtocolHandler σ)
  | h, [] => .ok h
  | h, (path, handler) :: routes =>
    (h.register t table path handler).bind fun h => registerAll table h routes

/-- `ServeStatic`. -/
def addStatic (urlPrefix rootDir : Bytes) : HttpProtocolHandler σ :=
  { h with staticConfigs := h.staticConfigs ++ [⟨urlPrefix, rootDir⟩] }

end HttpProtocolHandler

/-- What reading a file comes to, if `std::ifstream` can open it. -/
abbrev FileReader := Bytes → Option (Except StdException Bytes)

/-! ## Registration -/

namespace HttpProtocolHandler

variable {σ : Type*} {t : RegexTraits} {h h' : HttpProtocolHandler σ}

/-- **A route goes into its own table** and into no other one. -/
theorem register_eq (table : RouteTable) (path : Bytes) (handler : HttpHandler σ) :
    (∃ e, createRouteEntry t path handler = .error e
        ∧ h.register t table path handler = .error e)
      ∨ ∃ entry h', createRouteEntry t path handler = .ok entry
        ∧ h.register t table path handler = .ok h'
        ∧ ∀ table', h'.routesOf table'
          = h.routesOf table' ++ if table' = table then [entry] else [] := by
  cases hentry : createRouteEntry t path handler with
  | error e =>
    refine Or.inl ⟨e, rfl, ?_⟩
    cases table <;> exact congrArg (Except.map _) hentry
  | ok entry =>
    refine Or.inr ⟨entry, ?_⟩
    cases table
    all_goals
      refine ⟨_, rfl, congrArg (Except.map _) hentry, fun table' => ?_⟩
      cases table' <;> first | rfl | exact (List.append_nil _).symm

/-- **What is registered in a table** is what `addRoutes` makes of it. -/
theorem registerAll_eq (table : RouteTable) (h : HttpProtocolHandler σ)
    (routes : List (Bytes × HttpHandler σ)) :
    (registerAll t table h routes).map (fun h => h.routesOf table)
      = addRoutes t (h.routesOf table) routes := by
  induction routes generalizing h with
  | nil => rfl
  | cons route routes ih =>
    obtain ⟨path, handler⟩ := route
    rw [registerAll, addRoutes]
    obtain ⟨e, hentry, hregister⟩ | ⟨entry, h', hentry, hregister, hroutes⟩ :=
      register_eq (t := t) (h := h) table path handler
    · rw [hentry, hregister]
      rfl
    · rw [hentry, hregister]
      have htable : h'.routesOf table = h.routesOf table ++ [entry] := by
        rw [hroutes, if_pos rfl]
      show (registerAll t table h' routes).map _ = addRoutes t (h.routesOf table ++ [entry]) routes
      rw [ih, htable]

/-- **The routes of a table route as they are written**, whichever of the four functions has
registered them. -/
theorem registerAll_routed {table : RouteTable} {patterns : List (Bytes × HttpHandler σ)}
    (hempty : h.routesOf table = []) (hwritten : RoutesAsWritten t patterns) :
    ∃ h', registerAll t table h patterns = .ok h'
      ∧ ∀ path, RoutedAsWritten patterns path (matchRoute (h'.routesOf table) path) := by
  obtain ⟨routes, hroutes, hrouted⟩ := hwritten
  have hall := registerAll_eq (t := t) table h patterns
  rw [hempty, hroutes] at hall
  cases hregister : registerAll t table h patterns with
  | error e =>
    rw [hregister] at hall
    cases hall
  | ok h' =>
    rw [hregister] at hall
    cases hall
    exact ⟨h', rfl, hrouted⟩

end HttpProtocolHandler

namespace HttpRouteConfig

/-- The files that the handler of `/` looks for. -/
def indexPaths : List Bytes :=
  [lit "examples/public/index.html", lit "/CODE/OrangeLi_Http_Server/examples/public/index.html"]

/-- The page in place of a missing or empty file. -/
def fallbackPage : Bytes :=
  [lit "\n<!DOCTYPE html>\n<html>\n<head><title>Speed Test</title></head>\n<body>\n",
    lit "<h1>Speed Test Server</h1>\n",
    lit "<p>Server is running! Please ensure index.html exists in examples/public/</p>\n",
    lit "<a href=\"/admin\">Admin Panel</a>\n</body>\n</html>\n"].flatten

/-- The content that the handler of `/` sends: that of the first file that can be opened. -/
def indexContent (files : FileReader) : Except StdException Bytes :=
  ((indexPaths.findSome? files).getD (.ok [])).map fun content =>
    if content.isEmpty then fallbackPage else content

variable {δ : Type*} (t : RegexTraits) (members : MemberFunctions δ)
  (stray : HttpHandler (ServerState δ)) (files : δ → FileReader)

/-- The handler of `/`. -/
def indexHandler : HttpHandler (ServerState δ) := fun _ resp s =>
  ((indexContent (files s.data)).map fun content =>
    (resp.setBody content).setContentType (lit "text/html"), s)

/-- `SpeedTestApi::Register`, by the object with this number. -/
def registerApi (object : ℕ) (h : HttpProtocolHandler (ServerState δ)) :
    Except RegexError (HttpProtocolHandler (ServerState δ)) := do
  let h ← h.get t (lit "/api/stats") (callMember stray object members.handleGetStats)
  let h ← h.get t (lit "/api/devices") (callMember stray object members.handleGetDevices)
  let h ← h.get t (lit "/api/history") (callMember stray object members.handleGetHistory)
  h.post t (lit "/api/speedtest") (callMember stray object members.handleSaveRecord)

/-- `AdminPageHandler::Register`, by the object with this number. -/
def registerAdmin (object : ℕ) (h : HttpProtocolHandler (ServerState δ)) :
    Except RegexError (HttpProtocolHandler (ServerState δ)) :=
  h.get t (lit "/admin") (callMember stray object members.handleAdminPage)

/-- `RegisterRoutes`: nothing without a database. Its two objects are destroyed at its end, the
later one first. -/
def registerRoutes (database : Bool) (h : HttpProtocolHandler (ServerState δ))
    (s : ServerState δ) :
    Except RegexError (HttpProtocolHandler (ServerState δ) × ServerState δ) := do
  if !database then return (h, s)
  let (speedTestApi, s) := s.create
  let h ← registerApi t members stray speedTestApi h
  let (adminHandler, s) := s.create
  let h ← registerAdmin t members stray adminHandler h
  let h := ((h.addStatic (lit "/static") (lit "examples/public")).addStatic
    (lit "/css") (lit "examples/public/css")).addStatic (lit "/js") (lit "examples/public/js")
  let h ← h.get t (lit "/") (indexHandler files)
  return (h, (s.destroy adminHandler).destroy speedTestApi)

/-- The constructor of `HttpServer`: its two objects `speed_test_api_` and
`admin_page_handler_`. -/
def httpServer (data : δ) : ServerState δ := ({ data } : ServerState δ).create.2.create.2

/-- The requests that are handled, each with the user data of its connection: what becomes of it,
and what is called on the connection. -/
def requests {σ : Type*} (h : HttpProtocolHandler σ) (env : Environment σ) :
    Machine σ (StringMap × HttpRequest) (Except StdException Unit × List ConnCall) where
  step user r :=
    let handled := h.handleRequest env { user, userData := r.1 } r.2
    some (handled.2.user, (handled.1, handled.2.calls))

/-! ## What the routes do -/

/-- The requests that are handed to member functions: method and path. -/
def memberRequests : List (Bytes × Bytes) :=
  [(lit "GET", lit "/api/stats"), (lit "GET", lit "/api/devices"), (lit "GET", lit "/api/history"),
    (lit "POST", lit "/api/speedtest"), (lit "GET", lit "/admin")]

/-- What is sent for what a handler returns. -/
def outcome (order : IterationOrder) :
    Except StdException HttpResponse → Except StdException Unit × List ConnCall
  | .error e => (.error e, [])
  | .ok resp => (.ok (), [.sendAsync (resp.toString order)])

/-- The static files that `RegisterRoutes` configures. -/
def staticConfigs : List StaticFileConfig :=
  [⟨lit "/static", lit "examples/public"⟩, ⟨lit "/css", lit "examples/public/css"⟩,
    ⟨lit "/js", lit "examples/public/js"⟩]

/-- **What becomes of the other requests**: the page for `/`, an exception for a file, and
*not found* for all that is left. -/
def answer (order : IterationOrder) (files : FileReader) (fs : FileSystem) (req : HttpRequest) :
    Except StdException Unit × List ConnCall :=
  if req.method = lit "GET" ∧ req.path = lit "/" then
    outcome order ((indexContent files).map fun content =>
      (({} : HttpResponse).setBody content).setContentType (lit "text/html"))
  else if req.method = lit "GET"
      ∧ (HttpProtocolHandler.staticFile fs req.path staticConfigs).isSome then
    (.error .badFunctionCall, [])
  else outcome order (.ok (HttpProtocolHandler.notFoundResponse {}))

end HttpRouteConfig

/-! ## Patterns without parameters -/

theorem patternItems_plain {pattern : Bytes} (hplain : 0x3A ∉ pattern) :
    patternItems pattern = pattern.map .literal := by
  induction pattern with
  | nil => rw [patternItems, List.map_nil]
  | cons c pattern ih =>
    obtain ⟨hc, hpattern⟩ := List.ne_and_not_mem_of_not_mem_cons hplain
    rw [patternItems, if_neg hc.symm, ih hpattern, List.map_cons]

/-- **A pattern without parameters is read as one path.** -/
theorem asWritten_literals_iff {pattern : Bytes} {values : List Bytes} {path : Bytes} :
    AsWritten (pattern.map .literal) values path ↔ values = [] ∧ path = pattern := by
  induction pattern generalizing path with
  | nil =>
    constructor
    · rintro ⟨⟩
      exact ⟨rfl, rfl⟩
    · rintro ⟨rfl, rfl⟩
      exact .nil
  | cons c pattern ih =>
    constructor
    · rintro ⟨⟩
      rename_i hrest
      obtain ⟨rfl, rfl⟩ := ih.mp hrest
      exact ⟨rfl, rfl⟩
    · rintro ⟨rfl, rfl⟩
      exact .literal (ih.mpr ⟨rfl, rfl⟩)

namespace HttpProtocolHandler

variable {σ : Type*} {t : RegexTraits}

/-- **A pattern of plain characters**, in which nothing has a meaning of its own. -/
def PlainPattern (pattern : Bytes) : Prop :=
  ∀ c ∈ pattern, c ≠ 0x3A ∧ c ≠ 0x5B ∧ c ≠ 0x5C ∧ c ≠ 0x5D

instance (pattern : Bytes) : Decidable (PlainPattern pattern) :=
  inferInstanceAs (Decidable (∀ c ∈ pattern, _))

theorem PlainPattern.colon {pattern : Bytes} (h : PlainPattern pattern) : 0x3A ∉ pattern :=
  fun hmem => (h _ hmem).1 rfl

/-- Such a pattern is accepted. -/
theorem PlainPattern.createRouteEntry {pattern : Bytes} (h : PlainPattern pattern)
    (handler : HttpHandler σ) :
    HttpProtocolHandler.createRouteEntry t pattern handler = .ok (routeEntry pattern handler) := by
  refine createRouteEntry_eq (wellEscaped_of_forall fun c hc => ?_) handler
  rw [patternItems_plain h.colon] at hc
  obtain ⟨c', hmem, hliteral⟩ := List.mem_map.mp hc
  cases hliteral
  obtain ⟨-, hopener, hbackslash, hcloser⟩ := h c hmem
  rintro (rfl | rfl | ⟨rfl, -⟩) <;> contradiction

theorem PlainPattern.get {pattern : Bytes} (hplain : PlainPattern pattern)
    (h : HttpProtocolHandler σ) (handler : HttpHandler σ) :
    h.get t pattern handler
      = .ok { h with getRoutes := h.getRoutes ++ [routeEntry pattern handler] } := by
  rw [HttpProtocolHandler.get, hplain.createRouteEntry]
  rfl

theorem PlainPattern.post {pattern : Bytes} (hplain : PlainPattern pattern)
    (h : HttpProtocolHandler σ) (handler : HttpHandler σ) :
    h.post t pattern handler
      = .ok { h with postRoutes := h.postRoutes ++ [routeEntry pattern handler] } := by
  rw [HttpProtocolHandler.post, hplain.createRouteEntry]
  rfl

/-- **Plain patterns are looked up.** -/
theorem matchRoute_plain {patterns : List (Bytes × HttpHandler σ)}
    (hplain : ∀ p ∈ patterns, PlainPattern p.1) (path : Bytes) :
    matchRoute (patterns.map fun p => routeEntry p.1 p.2) path
      = (patterns.lookup path).map fun handler => (handler, ∅) := by
  induction patterns with
  | nil => rfl
  | cons p patterns ih =>
    obtain ⟨pattern, handler⟩ := p
    rw [List.forall_mem_cons] at hplain
    have hitems := patternItems_plain hplain.1.colon
    have hmatch := regexMatch_routeTree (separated_patternItems pattern) path
    rw [hitems] at hmatch
    have hrest := ih hplain.2
    unfold matchRoute at hrest ⊢
    rw [List.map_cons, List.findSome?_cons]
    by_cases hpath : path = pattern
    · have hregex : (routeEntry pattern handler).regex path = some [] := by
        unfold routeEntry
        rw [hitems]
        exact (hmatch []).mpr (asWritten_literals_iff.mpr ⟨rfl, hpath⟩)
      rw [hregex, List.lookup_cons, beq_iff_eq.mpr hpath]
      show some (handler, ((paramNames (patternItems pattern)).zip []).foldl _ ∅) = _
      rw [List.zip_nil_right]
      rfl
    · have hregex : (routeEntry pattern handler).regex path = none := by
        unfold routeEntry
        rw [hitems]
        exact Option.eq_none_iff_forall_ne_some.mpr fun values hvalues =>
          hpath (asWritten_literals_iff.mp ((hmatch values).mp hvalues)).2
      rw [hregex, List.lookup_cons, beq_eq_false_iff_ne.mpr hpath]
      exact hrest

end HttpProtocolHandler

/-! ## The server as it is left -/

namespace HttpRouteConfig

variable {δ : Type*} (t : RegexTraits) (members : MemberFunctions δ)
  (stray : HttpHandler (ServerState δ)) (files : δ → FileReader) (api admin : ℕ)

/-- The paths of `GET` that member functions answer, each with its object. -/
def getMembers : List (Bytes × ℕ × HttpHandler δ) :=
  [(lit "/api/stats", api, members.handleGetStats),
    (lit "/api/devices", api, members.handleGetDevices),
    (lit "/api/history", api, members.handleGetHistory),
    (lit "/admin", admin, members.handleAdminPage)]

/-- Those of `POST`. -/
def postMembers : List (Bytes × ℕ × HttpHandler δ) :=
  [(lit "/api/speedtest", api, members.handleSaveRecord)]

/-- The handlers for them. -/
def memberRoutes (table : List (Bytes × ℕ × HttpHandler δ)) :
    List (Bytes × HttpHandler (ServerState δ)) :=
  table.map fun p => (p.1, callMember stray p.2.1 p.2.2)

/-- **The member function that answers a request**, with its object. -/
def called (req : HttpRequest) : Option (ℕ × HttpHandler δ) :=
  if req.method = lit "GET" then (getMembers members api admin).lookup req.path
  else if req.method = lit "POST" then (postMembers members api).lookup req.path
  else none

/-- **The server with its routes**, registered by the objects with these numbers. -/
def configured : HttpProtocolHandler (ServerState δ) where
  getRoutes := (memberRoutes stray (getMembers members api admin)
    ++ [(lit "/", indexHandler files)]).map fun p => HttpProtocolHandler.routeEntry p.1 p.2
  postRoutes := (memberRoutes stray (postMembers members api)).map fun p =>
    HttpProtocolHandler.routeEntry p.1 p.2
  staticConfigs := staticConfigs

/-- **What `RegisterRoutes` leaves**: the routes of two objects that are no more. -/
theorem registerRoutes_eq (s : ServerState δ) :
    registerRoutes t members stray files true {} s
      = .ok (configured members stray files s.created (s.created + 1),
        { s with created := s.created + 2 }) := by
  have hplain : ∀ pattern ∈ [lit "/api/stats", lit "/api/devices", lit "/api/history",
      lit "/admin", lit "/", lit "/api/speedtest"], HttpProtocolHandler.PlainPattern pattern := by
    decide +kernel
  simp only [List.forall_mem_cons] at hplain
  obtain ⟨hstats, hdevices, hhistory, hadmin, hindex, hspeedtest, -⟩ := hplain
  have hexisting : (((s.created + 1) :: s.created :: s.existing).erase (s.created + 1)).erase
      s.created = s.existing := by
    rw [List.erase_cons_head, List.erase_cons_head]
  simp only [registerRoutes, registerApi, registerAdmin, bind, Except.bind, hstats.get,
    hdevices.get, hhistory.get, hadmin.get, hindex.get, hspeedtest.post, ServerState.create,
    ServerState.destroy, hexisting, Bool.not_true]
  rfl

theorem lookup_memberRoutes (table : List (Bytes × ℕ × HttpHandler δ)) (path : Bytes) :
    (memberRoutes stray table).lookup path
      = (table.lookup path).map fun m => callMember stray m.1 m.2 := by
  induction table with
  | nil => rfl
  | cons p table ih =>
    obtain ⟨pattern, object, member⟩ := p
    unfold memberRoutes at ih ⊢
    rw [List.map_cons, List.lookup_cons, List.lookup_cons, ih]
    cases path == pattern <;> rfl

/-- **Where a request goes.** -/
theorem matchRoute_configured (req : HttpRequest) :
    HttpProtocolHandler.matchRoute
        ((configured members stray files api admin).routesFor req.method) req.path
      = (((called members api admin req).map fun m => callMember stray m.1 m.2).or
          (if req.method = lit "GET" ∧ req.path = lit "/" then some (indexHandler files) else none)
        ).map fun handler => (handler, ∅) := by
  have hget : ∀ p ∈ memberRoutes stray (getMembers members api admin)
      ++ [(lit "/", indexHandler files)], HttpProtocolHandler.PlainPattern p.1 := by
    simp only [memberRoutes, getMembers, List.map_cons, List.map_nil, List.cons_append,
      List.nil_append, List.forall_mem_cons, List.not_mem_nil, false_imp_iff, implies_true,
      and_true]
    decide +kernel
  have hpost : ∀ p ∈ memberRoutes stray (postMembers members api),
      HttpProtocolHandler.PlainPattern p.1 := by
    simp only [memberRoutes, postMembers, List.map_cons, List.map_nil, List.forall_mem_cons,
      List.not_mem_nil, false_imp_iff, implies_true, and_true]
    decide +kernel
  unfold HttpProtocolHandler.routesFor called
  by_cases hmethod : req.method = lit "GET"
  · rw [if_pos hmethod, if_pos hmethod]
    refine (HttpProtocolHandler.matchRoute_plain hget req.path).trans ?_
    rw [List.lookup_append, lookup_memberRoutes, List.lookup_cons]
    by_cases hpath : req.path = lit "/"
    · rw [beq_iff_eq.mpr hpath, if_pos ⟨hmethod, hpath⟩]
    · rw [beq_eq_false_iff_ne.mpr hpath, if_neg fun h => hpath h.2]
      rfl
  · have hindex : ¬(req.method = lit "GET" ∧ req.path = lit "/") := fun h => hmethod h.1
    rw [if_neg hmethod, if_neg hmethod, if_neg hindex, Option.or_none]
    by_cases hmethod' : req.method = lit "POST"
    · rw [if_pos hmethod', if_pos hmethod']
      refine (HttpProtocolHandler.matchRoute_plain hpost req.path).trans ?_
      rw [lookup_memberRoutes]
    · rw [if_neg hmethod', if_neg hmethod']
      split_ifs <;> rfl

/-! ## One request -/

variable {members stray files api admin}

section Steps

variable {σ : Type*} {h : HttpProtocolHandler σ} (hmw : h.middlewares = []) (env : Environment σ)
  (user : σ) (r : StringMap × HttpRequest)

include hmw

/-- **A request that is routed** is handed to its handler. -/
theorem step_of_handler {handler : HttpHandler σ} {params : StringMap}
    (hroute : HttpProtocolHandler.matchRoute (h.routesFor r.2.method) r.2.path
      = some (handler, params)) :
    (requests h env).step user r
      = some ((handler r.2 {} user).2, outcome env.order (handler r.2 {} user).1) := by
  have haccept : HttpProtocolHandler.executeMiddlewares h.middlewares r.2 {} user
      = (.ok (true, r.2, {}), user) := by
    rw [hmw]
    rfl
  rcases hcall : handler r.2 {} user with ⟨e | resp, user'⟩
  · have hhandled : h.handleRequest env { user, userData := r.1 } r.2
        = (.error e, { HttpProtocolHandler.setPathParams env { user, userData := r.1 } params with
            user := user' }) := by
      simp [HttpProtocolHandler.handleRequest, haccept, hroute, HttpProtocolHandler.setPathParams,
        HttpProtocolHandler.callHandler, hcall]
    show some (_, _) = _
    rw [hhandled]
    rfl
  · show some (_, _) = _
    rw [HttpProtocolHandler.handleRequest_of_route haccept hroute hcall]
    rfl

/-- **A request that is not routed** is for a file, or for nothing. -/
theorem step_of_none
    (hroute : HttpProtocolHandler.matchRoute (h.routesFor r.2.method) r.2.path = none) :
    (requests h env).step user r
      = some (user, if r.2.method = lit "GET"
          ∧ (HttpProtocolHandler.staticFile (env.fileSystem user) r.2.path h.staticConfigs).isSome
        then (.error .badFunctionCall, [])
        else outcome env.order (.ok (HttpProtocolHandler.notFoundResponse {}))) := by
  have haccept : HttpProtocolHandler.executeMiddlewares h.middlewares r.2 {} user
      = (.ok (true, r.2, {}), user) := by
    rw [hmw]
    rfl
  by_cases hfile : r.2.method = lit "GET"
      ∧ (HttpProtocolHandler.staticFile (env.fileSystem user) r.2.path h.staticConfigs).isSome
  · obtain ⟨file, hsome⟩ := Option.isSome_iff_exists.mp hfile.2
    rw [if_pos hfile]
    show some (_, _) = _
    rw [hfile.1] at hroute
    simp [HttpProtocolHandler.handleRequest, haccept, hroute, hfile.1,
      HttpProtocolHandler.serveStatic_eq, hsome, HttpProtocolHandler.callHandler,
      HttpProtocolHandler.setPathParams]
  · rw [if_neg hfile]
    have hnone : r.2.method = lit "GET" →
        HttpProtocolHandler.staticFile (env.fileSystem user) r.2.path h.staticConfigs = none :=
      fun hget => Option.not_isSome_iff_eq_none.mp fun hsome => hfile ⟨hget, hsome⟩
    show some (_, _) = _
    rw [HttpProtocolHandler.handleRequest_of_none haccept hroute hnone]
    rfl

end Steps

variable (members stray files api admin)

/-- **What the server does with a request**: a member function is called, or the request is
answered without one. -/
theorem step_configured (env : Environment (ServerState δ)) (s : ServerState δ)
    (r : StringMap × HttpRequest) :
    (∃ m, called members api admin r.2 = some m
        ∧ (requests (configured members stray files api admin) env).step s r
          = some ((callMember stray m.1 m.2 r.2 {} s).2,
            outcome env.order (callMember stray m.1 m.2 r.2 {} s).1))
      ∨ (called members api admin r.2 = none
        ∧ (requests (configured members stray files api admin) env).step s r
          = some (s, answer env.order (files s.data) (env.fileSystem s) r.2)) := by
  have hroute := matchRoute_configured members stray files api admin r.2
  cases hcalled : called members api admin r.2 with
  | some m =>
    rw [hcalled, Option.map_some, Option.some_or, Option.map_some] at hroute
    exact .inl ⟨m, rfl, step_of_handler rfl env s r hroute⟩
  | none =>
    refine .inr ⟨rfl, ?_⟩
    rw [hcalled, Option.map_none, Option.none_or] at hroute
    unfold answer
    by_cases hindex : r.2.method = lit "GET" ∧ r.2.path = lit "/"
    · rw [if_pos hindex, Option.map_some] at hroute
      rw [if_pos hindex]
      exact step_of_handler rfl env s r hroute
    · rw [if_neg hindex, Option.map_none] at hroute
      rw [if_neg hindex]
      exact step_of_none rfl env s r hroute

/-! ## Runs -/

/-- **The request needs a destroyed object.** -/
def Stray (s : ServerState δ) (req : HttpRequest) : Prop :=
  ∃ m, called members api admin req = some m ∧ m.1 ∉ s.existing

/-- A member function of an object that exists changes the data only. -/
theorem callMember_of_mem {object : ℕ} {s : ServerState δ} (hmem : object ∈ s.existing)
    (member : HttpHandler δ) (req : HttpRequest) (resp : HttpResponse) :
    ∃ data, (callMember stray object member req resp s).2 = { s with data } := by
  unfold callMember
  rw [if_pos hmem]
  exact ⟨_, rfl⟩

/-- One of an object that does not exist may do anything. -/
theorem callMember_of_notMem {object : ℕ} {s : ServerState δ} (hmem : object ∉ s.existing)
    (member : HttpHandler δ) (req : HttpRequest) (resp : HttpResponse) :
    (callMember stray object member req resp s).2.undefined = true := by
  unfold callMember
  rw [if_neg hmem]

/-- **Runs of the server.** Whatever the member functions do, the server comes to undefined
behaviour exactly through a request that needs a destroyed object. Without requests for member
functions it stays as it is. -/
theorem run_configured (env : Environment (ServerState δ)) (s : ServerState δ)
    (reqs : List (StringMap × HttpRequest)) :
    ∃ s' os, (requests (configured members stray files api admin) env).run s reqs = some (s', os)
      ∧ (s'.undefined = true
        ↔ s.undefined = true ∨ ∃ r ∈ reqs, Stray members api admin s r.2)
      ∧ ((∀ r ∈ reqs, called members api admin r.2 = none) →
        s' = s ∧ os = reqs.map fun r =>
          answer env.order (files s.data) (env.fileSystem s) r.2) := by
  induction reqs generalizing s with
  | nil => exact ⟨s, [], rfl, by simp, fun _ => ⟨rfl, rfl⟩⟩
  | cons r reqs ih =>
    rw [List.exists_mem_cons_iff]
    obtain ⟨m, hcalled, hstep⟩ | ⟨hcalled, hstep⟩ :=
      step_configured members stray files api admin env s r
    · obtain ⟨s', os, hrun, hundefined, -⟩ := ih (callMember stray m.1 m.2 r.2 {} s).2
      refine ⟨s', _ :: os, Machine.run_cons_eq_some.mpr ⟨_, os, hstep, hrun, rfl⟩, ?_,
        fun hnone => ?_⟩
      · by_cases hmem : m.1 ∈ s.existing
        · obtain ⟨data, hcall⟩ := callMember_of_mem stray hmem m.2 r.2 {}
          have hnot : ¬Stray members api admin s r.2 := by
            rintro ⟨m', hm', hdead⟩
            rw [hcalled] at hm'
            cases hm'
            exact hdead hmem
          rw [hcall] at hundefined
          rw [hundefined]
          simp only [hnot, false_or]
          rfl
        · have hstray : Stray members api admin s r.2 := ⟨m, hcalled, hmem⟩
          have hflag := callMember_of_notMem stray hmem m.2 r.2 {}
          exact iff_of_true (hundefined.mpr (.inl hflag)) (.inr (.inl hstray))
      · have hr := hnone r List.mem_cons_self
        rw [hcalled] at hr
        cases hr
    · obtain ⟨s', os, hrun, hundefined, hquiet⟩ := ih s
      refine ⟨s', _ :: os, Machine.run_cons_eq_some.mpr ⟨_, os, hstep, hrun, rfl⟩, ?_,
        fun hnone => ?_⟩
      · have hnot : ¬Stray members api admin s r.2 := by
          rintro ⟨m, hm, -⟩
          rw [hcalled] at hm
          cases hm
        simp only [hnot, false_or]
        exact hundefined
      · obtain ⟨hs, hos⟩ := hquiet fun r hr => hnone r (List.mem_cons_of_mem _ hr)
        rw [hs, hos]
        exact ⟨rfl, rfl⟩

variable {api admin}

theorem called_object {req : HttpRequest} {m : ℕ × HttpHandler δ}
    (hcalled : called members api admin req = some m) : m.1 = api ∨ m.1 = admin := by
  have hmem : ∀ {table : List (Bytes × ℕ × HttpHandler δ)},
      table.lookup req.path = some m → (req.path, m) ∈ table := fun hlookup => by
    obtain ⟨front, back, rfl, -⟩ := List.lookup_eq_some_iff.mp hlookup
    exact List.mem_append_right front List.mem_cons_self
  unfold called at hcalled
  split_ifs at hcalled
  · have hentry := hmem hcalled
    simp only [getMembers, List.mem_cons, Prod.mk.injEq, List.not_mem_nil, or_false] at hentry
    obtain ⟨-, rfl⟩ | ⟨-, rfl⟩ | ⟨-, rfl⟩ | ⟨-, rfl⟩ := hentry
    · exact .inl rfl
    · exact .inl rfl
    · exact .inl rfl
    · exact .inr rfl
  · have hentry := hmem hcalled
    simp only [postMembers, List.mem_singleton, Prod.mk.injEq] at hentry
    obtain ⟨-, rfl⟩ := hentry
    exact .inl rfl

/-- **The requests that member functions answer.** -/
theorem exists_called_iff (req : HttpRequest) :
    (∃ m, called members api admin req = some m) ↔ (req.method, req.path) ∈ memberRequests := by
  rw [← Option.isSome_iff_exists]
  have hmethods : lit "POST" ≠ lit "GET" := by decide
  simp only [memberRequests, List.mem_cons, Prod.mk.injEq, List.not_mem_nil, or_false]
  unfold called
  by_cases hget : req.method = lit "GET"
  · have hpost : req.method ≠ lit "POST" := hget ▸ hmethods.symm
    simp [hget, hmethods.symm, getMembers, List.lookup_isSome_iff, or_comm, or_left_comm]
  · by_cases hpost : req.method = lit "POST"
    · simp [hpost, hmethods, postMembers]
    · simp [hget, hpost]

/-- **Objects that exist do not bring it about.** -/
theorem defined_of_existing (env : Environment (ServerState δ)) {s : ServerState δ}
    (hdefined : s.undefined = false) (hapi : api ∈ s.existing) (hadmin : admin ∈ s.existing)
    (reqs : List (StringMap × HttpRequest)) :
    ∃ s' os, (requests (configured members stray files api admin) env).run s reqs = some (s', os)
      ∧ s'.undefined = false := by
  obtain ⟨s', os, hrun, hundefined, -⟩ :=
    run_configured members stray files api admin env s reqs
  refine ⟨s', os, hrun, Bool.eq_false_iff.mpr fun hflag => ?_⟩
  obtain hbefore | ⟨r, -, m, hcalled, hdead⟩ := hundefined.mp hflag
  · rw [hdefined] at hbefore
    cases hbefore
  · obtain hobject | hobject := called_object members hcalled
    · exact hdead (hobject ▸ hapi)
    · exact hdead (hobject ▸ hadmin)

/-- **What the configured server does.** Whatever the member functions of the API and of the page
of the administrator would do, whatever comes of a call on a destroyed object, and in every run of
requests, in any order and from any connections: the server comes to undefined behaviour exactly
through the requests that these functions should answer. Until then it answers `/` with its page,
throws at every request for a file that exists, and answers everything else with *not found*. -/
theorem configured_requests (data : δ) :
    ∃ h s, registerRoutes t members stray files true {} (httpServer data) = .ok (h, s)
      ∧ ∀ (env : Environment (ServerState δ)) (reqs : List (StringMap × HttpRequest)),
        ∃ s' os, (requests h env).run s reqs = some (s', os)
          ∧ (s'.undefined = true ↔ ∃ r ∈ reqs, (r.2.method, r.2.path) ∈ memberRequests)
          ∧ (s'.undefined = false →
            s' = s ∧ os = reqs.map fun r =>
              answer env.order (files data) (env.fileSystem s) r.2) := by
  refine ⟨_, _, registerRoutes_eq t members stray files (httpServer data), fun env reqs => ?_⟩
  obtain ⟨s', os, hrun, hundefined, hquiet⟩ :=
    run_configured members stray files 2 3 env ({ httpServer data with created := 4 }) reqs
  have hstray : ∀ req, Stray members 2 3 ({ httpServer data with created := 4 }) req
      ↔ (req.method, req.path) ∈ memberRequests := by
    intro req
    constructor
    · rintro ⟨m, hcalled, -⟩
      exact (exists_called_iff members req).mp ⟨m, hcalled⟩
    · intro hmember
      obtain ⟨m, hcalled⟩ := (exists_called_iff members req).mpr hmember
      refine ⟨m, hcalled, ?_⟩
      show m.1 ∉ [1, 0]
      obtain hobject | hobject := called_object members hcalled <;> rw [hobject] <;> decide
  have hiff : s'.undefined = true ↔ ∃ r ∈ reqs, (r.2.method, r.2.path) ∈ memberRequests := by
    rw [hundefined]
    simp only [hstray]
    exact or_iff_right Bool.false_ne_true
  refine ⟨s', os, hrun, hiff, fun hdefined => hquiet fun r hr => ?_⟩
  by_contra hcalled
  have hmember := (exists_called_iff members r.2).mp (Option.ne_none_iff_exists'.mp hcalled)
  rw [hiff.mpr ⟨r, hr, hmember⟩] at hdefined
  cases hdefined

end HttpRouteConfig
