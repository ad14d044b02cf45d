import HttpServer.Pipelining
import HttpServer.ResponseStream
import HttpServer.StreamPrefix

/-!
# Requests and replies

The whole way of a request on a connection that is kept: from the chunks in which it comes, through
the parser, the middlewares and the route tables, the text of the response, the tasks of the
scheduler and the queue of the connection, to the client, which takes the responses apart.

`Conversation` says what should come of it: the requests of the stream are handled one after the
other, each in the state in which the one before has left the server, and each is answered with the
response that belongs to it. With one worker, that is what the client reads, as far as it has come,
however both streams are cut and in whatever order the threads take their steps
(`one_worker_exchange`).
-/

/-- A client finds a clean response wherever it stands. -/
theorem HttpResponse.Clean.encodes {resp : HttpResponse} (hclean : resp.Clean)
    (order : IterationOrder) :
    Consumer.Encodes ResponseClient.responseDecoder (toString order) reply resp := by
  intro rest
  rw [ResponseClient.responseDecoder_next]
  exact hclean.nextResponse_toString order rest

namespace HttpProtocolHandler

variable {σ : Type*}

/-! ## Clean responses -/

/-- **The middlewares and the handlers keep responses clean**, where they return. -/
structure KeepsClean (h : HttpProtocolHandler σ) : Prop where
  middleware : ∀ middleware ∈ h.middlewares, ∀ req resp user accepted req' resp' user',
    resp.Clean → middleware req resp user = (.ok (accepted, req', resp'), user') → resp'.Clean
  handler : ∀ route ∈ h.getRoutes ++ h.postRoutes ++ h.putRoutes ++ h.deleteRoutes,
    ∀ req resp user resp' user',
    resp.Clean → route.handler req resp user = (.ok resp', user') → resp'.Clean

/-- All of the middlewares. -/
theorem executeMiddlewares_clean {middlewares : List (Middleware σ)}
    (hkeep : ∀ middleware ∈ middlewares, ∀ req resp user accepted req' resp' user',
      resp.Clean → middleware req resp user = (.ok (accepted, req', resp'), user') → resp'.Clean)
    {req req' : HttpRequest} {resp resp' : HttpResponse} {user user' : σ} {accepted : Bool}
    (hclean : resp.Clean)
    (hrun : executeMiddlewares middlewares req resp user = (.ok (accepted, req', resp'), user')) :
    resp'.Clean := by
  induction middlewares generalizing req resp user with
  | nil =>
    cases hrun
    exact hclean
  | cons middleware middlewares ih =>
    have hfirst := hkeep middleware List.mem_cons_self req resp user
    rw [executeMiddlewares] at hrun
    rcases hm : middleware req resp user with ⟨e | ⟨accepted₁, req₁, resp₁⟩, user₁⟩
    · rw [hm] at hrun
      cases hrun
    rw [hm] at hrun
    have hclean₁ := hfirst _ _ _ _ hclean hm
    cases accepted₁ with
    | false =>
      cases hrun
      exact hclean₁
    | true => exact ih (fun m hmem => hkeep m (List.mem_cons_of_mem _ hmem)) hclean₁ hrun

theorem mimeType_noBreak (ext : Bytes) : 0x0D ∉ getMimeType ext ∧ 0x0A ∉ getMimeType ext := by
  have htable : ∀ entry ∈ mimeTypes, 0x0D ∉ entry.2 ∧ 0x0A ∉ entry.2 := by decide +kernel
  rw [getMimeType]
  cases hlookup : mimeTypes.lookup ext with
  | none => decide
  | some type =>
    obtain ⟨front, back, hsplit, -⟩ := List.lookup_eq_some_iff.mp hlookup
    refine htable (ext, type) ?_
    rw [hsplit]
    exact List.mem_append_right front List.mem_cons_self

variable {h : HttpProtocolHandler σ} {env : Environment σ}

/-- **The response that belongs to a request is clean.** -/
theorem KeepsClean.expectedResponse (hkeep : h.KeepsClean) {w : World σ} {req : HttpRequest}
    {resp : HttpResponse} (hresp : expectedResponse h env w req = some resp) : resp.Clean := by
  unfold HttpProtocolHandler.expectedResponse at hresp
  rcases hmw : executeMiddlewares h.middlewares req {} w.user
    with ⟨e | ⟨accepted, mutableReq, resp₁⟩, user⟩
  · rw [hmw] at hresp
    cases hresp
  rw [hmw] at hresp
  have hclean := executeMiddlewares_clean hkeep.middleware HttpResponse.clean_default hmw
  cases accepted with
  | false =>
    cases hresp
    exact hclean
  | true =>
    have hnotFound : (notFoundResponse resp₁).Clean :=
      (hclean.setStatus 404 (by decide)).setBody _
    dsimp only at hresp
    cases hroute : matchRoute (h.routesFor req.method) req.path with
    | some r =>
      obtain ⟨handler, params⟩ := r
      obtain ⟨route, hmem, rfl⟩ := handler_of_matchRoute hroute
      rw [hroute] at hresp
      dsimp only at hresp
      rcases hcall : route.handler mutableReq resp₁ user with ⟨e | resp', user'⟩
      · rw [hcall] at hresp
        cases hresp
      · rw [hcall] at hresp
        cases hresp
        exact hkeep.handler route (h.mem_of_mem_routesFor hmem) _ _ _ _ _ hclean hcall
    | none =>
      rw [hroute] at hresp
      dsimp only at hresp
      split at hresp
      · split at hresp <;> cases hresp
        · exact (hclean.setBody _).setContentType (mimeType_noBreak _)
        · exact hnotFound
      · cases hresp
        exact hnotFound

/-- **Where `HandleRequest` returns, it has sent the response that belongs to the request.** -/
theorem expectedResponse_of_handleRequest {w w' : World σ} {req : HttpRequest}
    (hreq : handleRequest h env w req = (.ok (), w')) :
    ∃ resp, expectedResponse h env w req = some resp
      ∧ w'.calls = w.calls ++ [.sendAsync (resp.toString env.order)] := by
  unfold expectedResponse
  rcases hmw : executeMiddlewares h.middlewares req {} w.user
    with ⟨e | ⟨accepted, mutableReq, resp⟩, user⟩
  · rw [handleRequest, hmw] at hreq
    cases hreq
  cases accepted with
  | false =>
    rw [handleRequest, hmw] at hreq
    cases hreq
    exact ⟨resp, rfl, rfl⟩
  | true =>
    dsimp only
    cases hroute : matchRoute (h.routesFor req.method) req.path with
    | some r =>
      obtain ⟨handler, params⟩ := r
      dsimp only
      rcases hcall : handler mutableReq resp user with ⟨e | resp', user'⟩
      · simp [handleRequest, hmw, hroute, setPathParams, callHandler, hcall] at hreq
      · rw [handleRequest_of_route hmw hroute hcall] at hreq
        cases hreq
        exact ⟨resp', rfl, rfl⟩
    | none =>
      by_cases hfile : req.method = lit "GET" →
          staticFile (env.fileSystem user) req.path h.staticConfigs = none
      · rw [handleRequest_of_none hmw hroute hfile] at hreq
        cases hreq
        refine ⟨notFoundResponse resp, ?_, rfl⟩
        dsimp only
        split
        · rename_i file hsome
          rw [if_neg fun hget => by rw [hfile hget] at hsome; cases hsome]
        · rfl
      · -- a static file comes to no handler, and `HandleRequest` throws
        obtain ⟨hget, hfound⟩ := Classical.not_imp.mp hfile
        obtain ⟨file, hfile⟩ := Option.ne_none_iff_exists'.mp hfound
        have hthrow := (handleRequest_of_file hmw hget hroute hfile).1
        rw [hreq] at hthrow
        cases hthrow

/-! ## What should come of a stream of requests -/

/-- **Requests and their responses**: the requests are handled one after the other, each in the
state in which the one before has left the server. -/
inductive Conversation (h : HttpProtocolHandler σ) (env : Environment σ) :
    World σ → List HttpRequest → List HttpResponse → World σ → Prop
  | nil (w : World σ) : Conversation h env w [] [] w
  | cons {w w₁ w' : World σ} {req : HttpRequest} {reqs : List HttpRequest} {resp : HttpResponse}
      {resps : List HttpResponse}
      (hresp : expectedResponse h env w req = some resp)
      (hreq : handleRequest h env { w with totalRequests := w.totalRequests + 1 } req
        = (.ok (), w₁))
      (hrest : Conversation h env w₁ reqs resps w') :
      Conversation h env w (req :: reqs) (resp :: resps) w'

/-- The responses are clean. -/
theorem Conversation.clean (hkeep : h.KeepsClean) {w w' : World σ} {reqs : List HttpRequest}
    {resps : List HttpResponse} (hconv : Conversation h env w reqs resps w') :
    ∀ resp ∈ resps, resp.Clean := by
  induction hconv with
  | nil => exact List.forall_mem_nil _
  | cons hresp _ _ ih => exact List.forall_mem_cons.mpr ⟨hkeep.expectedResponse hresp, ih⟩

variable (h env) in
/-- **The receiver holds the conversation**, if it is left waiting, and sends its responses. -/
theorem conversation_drain {s : Bytes} {w : World σ} {rest : Bytes}
    (hopen : (Consumer.drain httpDecoder (receive h env) s w).outcome = .waiting rest) :
    ∃ resps, Conversation h env w
        ((Consumer.drain httpDecoder (receive h env) s w).items.map Prod.fst) resps
        (Consumer.drain httpDecoder (receive h env) s w).state
      ∧ (Consumer.drain httpDecoder (receive h env) s w).state.calls
        = w.calls ++ onDataCalls (resps.map (HttpResponse.toString env.order)) false := by
  induction hn : s.length using Nat.strongRecOn generalizing s w with
  | _ n ih =>
    cases hnext : nextRequest s with
    | more =>
      rw [Consumer.drain_more (D := httpDecoder) hnext]
      exact ⟨[], .nil w, (List.append_nil _).symm⟩
    | fail e =>
      rw [Consumer.drain_fail (D := httpDecoder) hnext] at hopen
      cases hopen
    | item item rest' =>
      obtain ⟨req, keep⟩ := item
      have hlt : rest'.length < s.length := httpDecoder.length_lt hnext
      rw [Consumer.drain_item (D := httpDecoder) hnext, receive] at hopen ⊢
      rcases hreq : handleRequest h env { w with totalRequests := w.totalRequests + 1 } req
        with ⟨e | ⟨⟩, w₁⟩
      · rw [hreq] at hopen
        cases hopen
      rw [hreq] at hopen
      dsimp only at hopen ⊢
      cases keep with
      | false => cases hopen
      | true =>
        obtain ⟨resp, hresp, hcalls⟩ := expectedResponse_of_handleRequest hreq
        obtain ⟨resps, hconv, hsent⟩ := ih rest'.length (hn ▸ hlt) hopen rfl
        refine ⟨resp :: resps, .cons hresp hreq hconv, ?_⟩
        show (Consumer.drain httpDecoder (receive h env) rest' w₁).state.calls = _
        rw [hsent, hcalls, List.append_assoc]
        rfl

end HttpProtocolHandler

/-! ## The whole way -/

namespace Pipeline

open HttpProtocolHandler

variable {responses : List Bytes} {s t : Pipeline}

/-- What has been taken by the socket is a beginning of the responses. -/
theorem Ordered.wire_prefix (h : Ordered responses s) (hcarried : s.Carried) :
    s.wire <+: responses.flatten := by
  have hqueued : s.wire ++ s.conn.pending = (responses.take s.sent.length).flatten :=
    h.inOrder hcarried
  have hsplit : responses.flatten
      = (responses.take s.sent.length).flatten ++ (responses.drop s.sent.length).flatten := by
    rw [← List.flatten_append, List.take_append_drop]
  rw [hsplit, ← hqueued, List.append_assoc]
  exact List.prefix_append _ _

/-- **When nothing is left to be done**, it is all of them. -/
theorem Ordered.wire_eq (h : Ordered responses s) (hcarried : s.Carried) (hcalls : s.calls = [])
    (hout : s.scheduler.pool.outstanding = []) (hpending : s.conn.pending = []) :
    s.wire = responses.flatten := by
  obtain ⟨rest, hprogram, hresponses⟩ := h.program
  rw [hcalls] at hprogram
  have hrest : rest = [] := by
    cases rest with
    | nil => rfl
    | cons data rest => cases hprogram
  have hscheduled : s.scheduled.length = responses.length := by
    rw [← hresponses, hrest, List.append_nil, List.length_map]
  have hsent : s.sent.length = s.scheduled.length := by
    have hperm := h.account.perm
    rw [hout, List.append_nil] at hperm
    exact hperm.length_eq
  have hqueued : s.wire ++ s.conn.pending = (responses.take s.sent.length).flatten :=
    h.inOrder hcarried
  rwa [hpending, List.append_nil, hsent, hscheduled, List.take_length] at hqueued

variable {σ : Type*} {h : HttpProtocolHandler σ}

/-- **Each request is answered with its response, in order.** For every server that runs and whose
callbacks keep responses clean, every stream of requests that does not ask for the speed test and
leaves the connection open, in whatever chunks it comes, and one worker: whatever order the threads
take their steps in and whatever the allocator and the socket answer, as long as the queue has room
for the responses, the client reads the first of the responses that the requests get when they are
handled one after the other, and nothing else, however the stream to it is cut. When nothing is
left to be sent, it has read all of them. -/
theorem one_worker_exchange (hrun : h.running = true) (hkeep : h.KeepsClean) (env : Environment σ)
    (chunks : List (ℕ × Bytes)) (w : World σ) (hfresh : w.calls = [])
    (hno : NoSpeedTest (chunks.map Prod.snd).flatten) {rest : Bytes}
    (hopen : (deliver h env chunks w).ending = .leftOpen rest) (maxConcurrent : ℕ) (fd : ℤ)
    (maxSendQueueSize : UInt64) {actions : List PipelineAction} {os : List Unit}
    (hroom : machine.Along HasRoom
      (start 1 maxConcurrent fd maxSendQueueSize (deliver h env chunks w).world.calls) actions)
    (hr : machine.run
      (start 1 maxConcurrent fd maxSendQueueSize (deliver h env chunks w).world.calls) actions
        = some (t, os)) :
    ∃ resps, Conversation h env w (deliver h env chunks w).requests resps
        (deliver h env chunks w).world
      ∧ ∀ cut : List Bytes, cut.flatten = t.wire → ∃ k ≤ resps.length, ∃ left,
        Consumer.feedAll ResponseClient.responseDecoder ResponseClient.accept cut ()
            = ⟨(resps.take k).map HttpResponse.reply, .waiting left, ()⟩
          ∧ (t.calls = [] → t.scheduler.pool.outstanding = [] → t.conn.pending = [] →
            k = resps.length ∧ left = []) := by
  obtain ⟨hrequests, hending, hworld⟩ := deliver_matches env hrun chunks w hno.noUpgrade
  have hwaiting : (Consumer.drain httpDecoder (receive h env) (chunks.map Prod.snd).flatten
      w).outcome = .waiting rest := by
    rw [hopen] at hending
    cases hout : (Consumer.drain httpDecoder (receive h env) (chunks.map Prod.snd).flatten
      w).outcome with
    | waiting rest' =>
      rw [hout] at hending
      rw [Ending.leftOpen.inj hending]
    | stopped =>
      rw [hout] at hending
      cases hending
    | failed e =>
      rw [hout] at hending
      cases hending
  obtain ⟨resps, hconv, hcalls⟩ := conversation_drain h env hwaiting
  rw [← hrequests, ← hworld] at hconv
  rw [← hworld, hfresh, List.nil_append] at hcalls
  rw [hcalls] at hroom hr
  refine ⟨resps, hconv, fun cut hcut => ?_⟩
  obtain ⟨hordered, hcarried⟩ := (one_worker_ordered maxConcurrent fd maxSendQueueSize _ actions
    hroom).of_run hr
  obtain ⟨k, left, hcame, hdrain⟩ := Consumer.drain_of_prefix
    ResponseClient.responseDecoder ResponseClient.accept HttpResponse.reply (fun _ _ _ => rfl)
    (fun resp hresp => (hconv.clean hkeep resp hresp).encodes env.order)
    (hordered.wire_prefix hcarried) ()
  refine ⟨k, hcame.le_length, left, ?_, fun hcalls hout hpending => ?_⟩
  · rw [Consumer.feedAll_eq_drain, hcut, hdrain]
  · rw [hordered.wire_eq hcarried hcalls hout hpending] at hcame
    exact hcame.eq_length

/-! ### The page of `pageServer` -/

/-- The page. -/
def helloResponse : HttpResponse := ({} : HttpResponse).setBody (lit "hello")

/-- What comes of the request for it: the page is sent, and the connection left open. -/
theorem drain_helloStream :
    let d := Consumer.drain httpDecoder (receive pageServer logoEnvironment) helloStream
      ⟨(), ∅, [], 0⟩
    d.items.map Prod.fst
        = [{ method := lit "GET", path := lit "/hello", version := lit "HTTP/1.1" }]
      ∧ d.outcome = .waiting (lit "GET /")
      ∧ d.state.calls = [.sendAsync (helloResponse.toString logoEnvironment.order)] := by
  have hmore : httpDecoder.next (lit "GET /") = .more := rfl
  have hroute : matchRoute (pageServer.routesFor (lit "GET")) (lit "/hello")
      = some (fun _ resp user => (.ok (resp.setBody (lit "hello")), user), ∅) := rfl
  rw [Consumer.drain_item (D := httpDecoder) (nextRequest_of_parse parse_helloStream), receive,
    handleRequest_of_route rfl hroute rfl]
  dsimp only
  rw [if_pos (by decide)]
  dsimp only
  rw [Consumer.drain_more hmore]
  exact ⟨rfl, rfl, rfl⟩

/-- The client reads the page. -/
theorem one_worker_exchange_hello :
    let r := deliver pageServer logoEnvironment [(0, helloStream)] ⟨(), ∅, [], 0⟩
    let page := helloResponse.toString logoEnvironment.order
    ∃ t os, machine.run (start 1 1 5 0xFFFFFFFFFFFFFFFF r.world.calls) (sendOne page)
        = some (t, os)
      ∧ t.wire = page
      ∧ ∃ resps, Conversation pageServer logoEnvironment ⟨(), ∅, [], 0⟩ r.requests resps r.world
        ∧ ∀ cut : List Bytes, cut.flatten = page →
          Consumer.feedAll ResponseClient.responseDecoder ResponseClient.accept cut ()
            = ⟨[helloResponse.reply], .waiting [], ()⟩ := by
  have hkeep : pageServer.KeepsClean := by
    refine ⟨fun _ hmem => absurd hmem List.not_mem_nil, ?_⟩
    intro route hmem req resp user resp' user' hclean hcall
    simp only [pageServer, List.append_nil, List.mem_singleton] at hmem
    subst hmem
    cases hcall
    exact hclean.setBody _
  have hno : NoSpeedTest ([(0, helloStream)].map Prod.snd).flatten := by
    rw [List.map_singleton, List.flatten_singleton]
    exact helloStream_noSpeedTest
  obtain ⟨hitems, hwaiting, hcalls⟩ := drain_helloStream
  obtain ⟨hrequests, hending, hworld⟩ := deliver_matches logoEnvironment (h := pageServer) rfl
    [(0, helloStream)] ⟨(), ∅, [], 0⟩ hno.noUpgrade
  rw [List.map_singleton, List.flatten_singleton] at hrequests hending hworld
  rw [hitems] at hrequests
  rw [hwaiting] at hending
  rw [← hworld] at hcalls
  intro r page
  have hmax : .ofNat page.length ≤ (0xFFFFFFFFFFFFFFFF : UInt64) := by
    rw [UInt64.le_iff_toNat_le]
    exact Nat.le_of_lt_succ (UInt64.ofNat page.length).toNat_lt
  have hroom : machine.Along HasRoom (start 1 1 5 0xFFFFFFFFFFFFFFFF r.world.calls)
      (sendOne page) := by
    rw [hcalls]
    exact hasRoom_sendOne hmax
  have hr : machine.run (start 1 1 5 0xFFFFFFFFFFFFFFFF r.world.calls) (sendOne page)
      = some (oneSent 5 0xFFFFFFFFFFFFFFFF page, List.replicate 9 ()) := by
    rw [hcalls]
    exact run_sendOne 5 _ page
  obtain ⟨hwire, hpending⟩ := oneSent_done 5 hmax
  obtain ⟨resps, hconv, hread⟩ := one_worker_exchange rfl hkeep logoEnvironment _ _ rfl hno
    hending 1 5 0xFFFFFFFFFFFFFFFF hroom hr
  refine ⟨_, _, hr, hwire, resps, hconv, fun cut hcut => ?_⟩
  obtain ⟨k, -, left, hfeed, hall⟩ := hread cut (hcut.trans hwire.symm)
  obtain ⟨hk, hleft⟩ := hall rfl rfl hpending
  have hresps : resps = [helloResponse] := by
    rw [hrequests] at hconv
    cases hconv with
    | cons hresp _ hrest =>
      cases hrest
      cases hresp
      rfl
  rw [hfeed, hk, hleft, List.take_length, hresps]
  rfl

end Pipeline
