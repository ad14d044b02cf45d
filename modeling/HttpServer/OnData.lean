import HttpServer.Consumer
import HttpServer.HttpProtocolHandler
import HttpServer.ParseHttpRequest

/-!
# Receiving data

`OnData` of `application/http/http_protocol_handler.cpp`, on the entry of `contexts_`
for one connection. The data are appended to the buffer of the connection; a complete
upgrade request for the speed test hands the connection over to a WebSocket session;
otherwise requests are parsed and handled one after the other, until the buffer holds
no complete one or one of them ends the connection.

Parsing is a `Consumer.Decoder` (`httpDecoder`): what it finds at the front of a buffer
it finds there whatever follows. Handling is the receiver of its items. So `OnData` is
one step of the receiver of chunks (`onData_matches`) as long as no request asks for the
speed test, and the segmentation of the stream makes no difference
(`onData_segmentation`).
-/

/-- What `OnData` left the connection in. -/
inductive ConnOutcome
  /-- It waits for more data. -/
  | waiting
  /-- It has been closed. -/
  | closed
  /-- It belongs to a WebSocket session now. -/
  | upgraded
  /-- An exception has left `OnData`. -/
  | raised (e : StdException)
  deriving DecidableEq

/-- The requests passed to `HandleRequest`, how it ended, the entry of `contexts_`, and
the world. -/
structure Received (σ : Type*) where
  requests : List HttpRequest
  outcome : ConnOutcome
  entry : Option ConnectionHttpContext
  world : World σ

/-- How the calls of `OnData` ended, with the bytes left over if the connection is open. -/
inductive Ending
  | leftOpen (buffer : Bytes)
  | closed
  | upgraded
  | raised (e : StdException)
  deriving DecidableEq

/-- How it ended; without an entry there is nothing in the buffer. -/
def Received.ending {σ : Type*} (r : Received σ) : Ending :=
  match r.outcome with
  | .waiting => .leftOpen (r.entry.getD {}).buffer
  | .closed => .closed
  | .upgraded => .upgraded
  | .raised e => .raised e

/-- The path of the speed test. -/
def speedTestPath : Bytes := lit "/ws/speedtest"

/-- A successful parse takes something off the buffer. -/
theorem length_buffer_lt {ctx ctx' : ConnectionHttpContext} {req req' : HttpRequest}
    (h : parseHttpRequest ctx req = .ok (true, ctx', req')) :
    ctx'.buffer.length < ctx.buffer.length := by
  obtain ⟨headerEnd, length, head, path, version, -, -, hle, -, rfl⟩ := parseHttpRequest_true h
  rw [List.length_drop]
  omega

namespace HttpProtocolHandler

variable {σ : Type*} (h : HttpProtocolHandler σ) (env : Environment σ)

/-! ## The source -/

/-- The loop of `OnData` over the requests in the buffer. -/
def serve (ctx : ConnectionHttpContext) (w : World σ) : Received σ :=
  if ctx.buffer = [] then ⟨[], .waiting, some ctx, w⟩
  else
    match hp : parseHttpRequest ctx {} with
    | .error e => ⟨[], .raised e, some ctx, w⟩
    | .ok (false, ctx, _) => ⟨[], .waiting, some ctx, w⟩
    | .ok (true, ctx', req) =>
      match handleRequest h env { w with totalRequests := w.totalRequests + 1 } req with
      | (.error e, w) => ⟨[req], .raised e, some ctx', w⟩
      | (.ok (), w) =>
        if !ctx'.isKeepAlive then ⟨[req], .closed, none, { w with calls := w.calls ++ [.close] }⟩
        else
          have : ctx'.buffer.length < ctx.buffer.length := length_buffer_lt hp
          let r := serve ctx'.reset w
          ⟨req :: r.requests, r.outcome, r.entry, r.world⟩
termination_by ctx.buffer.length

/-- `::tolower`, character by character. -/
def toLower (s : Bytes) : Bytes := s.map fun c => if 0x41 ≤ c && c ≤ 0x5A then c + 0x20 else c

/-- The look for a WebSocket upgrade: the request at the front of the buffer, if it
asks for the speed test. It is parsed on a copy of the context. -/
def upgradeRequest (ctx : ConnectionHttpContext) :
    Except StdException (Option HttpRequest) :=
  match Search.find crlfcrlf ctx.buffer with
  | none => .ok none
  | some headerEnd =>
    let headerPart := ctx.buffer.take headerEnd
    if Search.contains (lit "Upgrade: websocket") headerPart
        || Search.contains (lit "Upgrade: WebSocket") headerPart then
      match parseHttpRequest ctx {} with
      | .error e => .error e
      | .ok (false, _, _) => .ok none
      | .ok (true, _, req) =>
        if toLower (req.getHeader (lit "Upgrade")) = lit "websocket" ∧ req.path = speedTestPath
        then .ok (some req) else .ok none
    else .ok none

/-- The upgrade: the request is taken off the buffer and the handshake is made. Where
it fails the connection is closed, which `CreateAndHandle` may have done before. -/
def upgrade (ctx : ConnectionHttpContext) (req : HttpRequest) (w : World σ) : Received σ :=
  match contentLength req with
  | .error e => ⟨[], .raised e, some ctx, w⟩
  | .ok _ =>
    -- the request is erased from a buffer that goes with its entry in each case
    let key := req.getHeader (lit "Sec-WebSocket-Key")
    if key.isEmpty then ⟨[], .closed, none, { w with calls := w.calls ++ [.close] }⟩
    else if env.handshakeSent key w.user then
      ⟨[], .upgraded, none, { w with calls := w.calls ++ [.handshake key, .setDataCallback] }⟩
    else ⟨[], .closed, none, { w with calls := w.calls ++ [.handshake key, .close, .close] }⟩

/-- `OnData` with the data that arrived at a time, on the entry of `contexts_` for the
connection; an entry that is missing is created. -/
def onData (now : ℕ) (data : Bytes) (entry : Option ConnectionHttpContext) (w : World σ) :
    Received σ :=
  if !h.running then ⟨[], .waiting, entry, w⟩
  else
    let ctx := entry.getD {}
    let ctx := { ctx with lastActivity := now, buffer := ctx.buffer ++ data }
    match upgradeRequest ctx with
    | .error e => ⟨[], .raised e, some ctx, w⟩
    | .ok (some req) => upgrade env ctx req w
    | .ok none => serve h env ctx w

/-- One more chunk, with the time of its arrival, on a connection that is still open. -/
def deliverChunk (r : Received σ) (chunk : ℕ × Bytes) : Received σ :=
  match r.outcome with
  | .waiting =>
    let r' := onData h env chunk.1 chunk.2 r.entry r.world
    { r' with requests := r.requests ++ r'.requests }
  | _ => r

/-- The chunks of a new connection, until `OnData` has closed it or thrown. -/
def deliver (chunks : List (ℕ × Bytes)) (w : World σ) : Received σ :=
  chunks.foldl (deliverChunk h env) ⟨[], .waiting, none, w⟩

end HttpProtocolHandler

/-! ## Parsing as a decoder -/

/-- Time and keep-alive flag of the context do not matter to the parser. -/
theorem parseHttpRequest_eq (ctx : ConnectionHttpContext) (req : HttpRequest) :
    parseHttpRequest ctx req = match parseHttpRequest { buffer := ctx.buffer } req with
      | .error e => .error e
      | .ok (false, _, req') => .ok (false, ctx, req')
      | .ok (true, ctx', req') =>
        .ok (true, { ctx' with lastActivity := ctx.lastActivity }, req') := by
  unfold parseHttpRequest
  cases Search.find crlfcrlf ctx.buffer with
  | none => rfl
  | some headerEnd =>
    simp only
    rcases parseHeaderPart (ctx.buffer.take headerEnd) req
      with e | ⟨head, - | ⟨path, version, length⟩⟩
    · rfl
    · rfl
    · simp only
      split <;> rfl

/-- **What is parsed at the front of a buffer is parsed whatever follows.** -/
theorem parseHttpRequest_append {ctx ctx' : ConnectionHttpContext} {req req' : HttpRequest}
    (h : parseHttpRequest ctx req = .ok (true, ctx', req')) (t : Bytes) :
    parseHttpRequest { ctx with buffer := ctx.buffer ++ t } req
      = .ok (true, { ctx' with buffer := ctx'.buffer ++ t }, req') := by
  obtain ⟨headerEnd, length, head, path, version, hfind, hhead, hle, rfl, rfl⟩ :=
    parseHttpRequest_true h
  have hfind' := Search.find_append_of_some hfind t (by decide)
  have htake : (ctx.buffer ++ t).take headerEnd = ctx.buffer.take headerEnd :=
    List.take_append_of_le_length (by omega)
  have hbody : ((ctx.buffer ++ t).drop (headerEnd + 4)).take length
      = (ctx.buffer.drop (headerEnd + 4)).take length := by
    rw [List.drop_append_of_le_length (by omega),
      List.take_append_of_le_length (by rw [List.length_drop]; omega)]
  have hrest : (ctx.buffer ++ t).drop (headerEnd + 4 + length)
      = ctx.buffer.drop (headerEnd + 4 + length) ++ t :=
    List.drop_append_of_le_length (by omega)
  unfold parseHttpRequest
  simp only [hfind', htake, hhead, hbody, hrest]
  rw [if_neg (by rw [List.length_append]; omega)]

/-- **What throws at the front of a buffer throws whatever follows.** -/
theorem parseHttpRequest_error_append {ctx : ConnectionHttpContext} {req : HttpRequest}
    {e : StdException} (h : parseHttpRequest ctx req = .error e) (t : Bytes) :
    parseHttpRequest { ctx with buffer := ctx.buffer ++ t } req = .error e := by
  unfold parseHttpRequest at h ⊢
  cases hfind : Search.find crlfcrlf ctx.buffer with
  | none =>
    rw [hfind] at h
    cases h
  | some headerEnd =>
    have hend := Search.add_length_le_of_find hfind (by decide)
    have hfind' := Search.find_append_of_some hfind t (by decide)
    have htake : (ctx.buffer ++ t).take headerEnd = ctx.buffer.take headerEnd :=
      List.take_append_of_le_length (by omega)
    simp only [hfind] at h
    simp only [hfind', htake]
    rcases hhead : parseHeaderPart (ctx.buffer.take headerEnd) req with
      e' | ⟨head, - | ⟨path, version, length⟩⟩
    · rw [hhead] at h
      cases h
      rfl
    · rw [hhead] at h
      cases h
    · rw [hhead] at h
      simp only at h
      split at h <;> cases h

/-- An attempt to parse a request off a buffer: the request and whether it keeps the
connection. -/
def nextRequest (s : Bytes) : Consumer.Attempt UInt8 (HttpRequest × Bool) StdException :=
  match parseHttpRequest { buffer := s } {} with
  | .error e => .fail e
  | .ok (false, _, _) => .more
  | .ok (true, ctx, req) => .item (req, ctx.isKeepAlive) ctx.buffer

theorem parseHttpRequest_of_fail (ctx : ConnectionHttpContext) {e : StdException}
    (h : nextRequest ctx.buffer = .fail e) : parseHttpRequest ctx {} = .error e := by
  unfold nextRequest at h
  rw [parseHttpRequest_eq]
  split at h
  · cases h
    rfl
  · cases h
  · cases h

theorem parseHttpRequest_of_more (ctx : ConnectionHttpContext)
    (h : nextRequest ctx.buffer = .more) :
    ∃ req, parseHttpRequest ctx {} = .ok (false, ctx, req) := by
  unfold nextRequest at h
  rw [parseHttpRequest_eq]
  split at h
  · cases h
  · exact ⟨_, rfl⟩
  · cases h

theorem parseHttpRequest_of_item (ctx : ConnectionHttpContext) {item : HttpRequest × Bool}
    {rest : Bytes} (h : nextRequest ctx.buffer = .item item rest) :
    parseHttpRequest ctx {} = .ok (true, ⟨rest, ctx.lastActivity, item.2⟩, item.1) := by
  unfold nextRequest at h
  rw [parseHttpRequest_eq]
  split at h
  · cases h
  · cases h
  · cases h
    rfl

theorem nextRequest_of_parse {s : Bytes} {ctx : ConnectionHttpContext} {req : HttpRequest}
    (h : parseHttpRequest { buffer := s } {} = .ok (true, ctx, req)) :
    nextRequest s = .item (req, ctx.isKeepAlive) ctx.buffer := by
  rw [nextRequest, h]

theorem nextRequest_of_parse_error {s : Bytes} {e : StdException}
    (h : parseHttpRequest { buffer := s } {} = .error e) : nextRequest s = .fail e := by
  rw [nextRequest, h]

/-- `false` is what there is where an attempt needs more. -/
theorem parseHttpRequest_false_iff (ctx : ConnectionHttpContext) :
    (∃ ctx' req, parseHttpRequest ctx {} = .ok (false, ctx', req))
      ↔ nextRequest ctx.buffer = .more := by
  cases hnext : nextRequest ctx.buffer with
  | more =>
    obtain ⟨req, hp⟩ := parseHttpRequest_of_more ctx hnext
    exact iff_of_true ⟨ctx, req, hp⟩ rfl
  | fail e =>
    rw [parseHttpRequest_of_fail ctx hnext]
    exact iff_of_false (by simp) (by simp)
  | item item rest =>
    rw [parseHttpRequest_of_item ctx hnext]
    exact iff_of_false (by simp) (by simp)

/-- `true` is what there is where an attempt gives a request. -/
theorem parseHttpRequest_true_iff (ctx : ConnectionHttpContext) :
    (∃ ctx' req, parseHttpRequest ctx {} = .ok (true, ctx', req))
      ↔ ∃ item rest, nextRequest ctx.buffer = .item item rest := by
  cases hnext : nextRequest ctx.buffer with
  | more =>
    obtain ⟨req, hp⟩ := parseHttpRequest_of_more ctx hnext
    rw [hp]
    exact iff_of_false (by simp) (by simp)
  | fail e =>
    rw [parseHttpRequest_of_fail ctx hnext]
    exact iff_of_false (by simp) (by simp)
  | item item rest =>
    exact iff_of_true ⟨_, _, parseHttpRequest_of_item ctx hnext⟩ ⟨item, rest, rfl⟩

/-- **Parsing requests off a buffer is a decoder.** -/
def httpDecoder : Consumer.Decoder UInt8 (HttpRequest × Bool) StdException where
  next := nextRequest
  next_nil := rfl
  length_lt {s a rest} h :=
    length_buffer_lt (parseHttpRequest_of_item { buffer := s } h)
  item_append {s a rest} h t := by
    have hp := parseHttpRequest_append (parseHttpRequest_of_item { buffer := s } h) t
    exact nextRequest_of_parse hp
  fail_append {s e} h t := by
    have hp := parseHttpRequest_error_append (parseHttpRequest_of_fail { buffer := s } h) t
    rw [nextRequest]
    simp only at hp
    rw [hp]

/-! ## The requests of a stream -/

/-- The requests that are parsed from a stream, as long as each keeps the connection. -/
inductive ParsedFrom : Bytes → HttpRequest → Prop
  /-- The request at the front. -/
  | front {s : Bytes} {ctx : ConnectionHttpContext} {req : HttpRequest}
      (h : parseHttpRequest { buffer := s } {} = .ok (true, ctx, req)) : ParsedFrom s req
  /-- A request behind it. -/
  | behind {s : Bytes} {ctx : ConnectionHttpContext} {req req' : HttpRequest}
      (h : parseHttpRequest { buffer := s } {} = .ok (true, ctx, req))
      (hkeep : ctx.isKeepAlive = true) (h' : ParsedFrom ctx.buffer req') : ParsedFrom s req'

/-- **No request of the stream asks for the speed test.** -/
def NoSpeedTest (s : Bytes) : Prop := ∀ req, ParsedFrom s req → req.path ≠ speedTestPath

/-- The request asks for the upgrade to a WebSocket session. -/
def AsksForUpgrade (req : HttpRequest) : Prop :=
  HttpProtocolHandler.toLower (req.getHeader (lit "Upgrade")) = lit "websocket"
    ∧ req.path = speedTestPath

/-- No request of the stream asks for the upgrade. -/
def NoUpgrade (s : Bytes) : Prop := ∀ req, ParsedFrom s req → ¬ AsksForUpgrade req

theorem NoSpeedTest.noUpgrade {s : Bytes} (h : NoSpeedTest s) : NoUpgrade s :=
  fun req hreq hasks => h req hreq hasks.2

theorem ParsedFrom.append {s : Bytes} {req : HttpRequest} (h : ParsedFrom s req) (t : Bytes) :
    ParsedFrom (s ++ t) req := by
  induction h with
  | front h => exact .front (parseHttpRequest_append h t)
  | behind h hkeep h' ih => exact .behind (parseHttpRequest_append h t) hkeep ih

/-- What holds of a stream holds of its beginnings. -/
theorem NoUpgrade.of_append {s t : Bytes} (h : NoUpgrade (s ++ t)) : NoUpgrade s :=
  fun req hreq => h req (hreq.append t)

/-- What holds of a stream holds of what is behind its first request. -/
theorem NoUpgrade.rest {s rest : Bytes} {req : HttpRequest} (h : NoUpgrade s)
    (hnext : nextRequest s = .item (req, true) rest) : NoUpgrade rest := by
  have hp := parseHttpRequest_of_item { buffer := s } hnext
  exact fun req' hreq' => h req' (.behind hp rfl hreq')

namespace HttpProtocolHandler

variable {σ : Type*} {h : HttpProtocolHandler σ} {env : Environment σ}

/-! ## Serving is draining -/

variable (h env) in
/-- A request is received: it is counted and handled, and the connection is closed
behind it unless the request keeps it. -/
def receive (item : HttpRequest × Bool) (w : World σ) :
    Consumer.Verdict StdException × World σ :=
  match handleRequest h env { w with totalRequests := w.totalRequests + 1 } item.1 with
  | (.error e, w) => (.abort e, w)
  | (.ok (), w) =>
    if item.2 then (.goOn, w) else (.stop, { w with calls := w.calls ++ [.close] })

/-- The ending that belongs to an outcome of the receiver. -/
def endingOf : Consumer.Outcome UInt8 StdException → Ending
  | .waiting rest => .leftOpen rest
  | .stopped => .closed
  | .failed e => .raised e

/-- **What was received is what the receiver of items makes of the stream.** -/
structure Matches (r : Received σ)
    (d : Consumer.Run UInt8 (HttpRequest × Bool) StdException (World σ)) : Prop where
  requests_eq : r.requests = d.items.map Prod.fst
  ending_eq : r.ending = endingOf d.outcome
  world_eq : r.world = d.state

/-- Taking one more request in front. -/
theorem Matches.cons {r : Received σ}
    {d : Consumer.Run UInt8 (HttpRequest × Bool) StdException (World σ)} (hm : Matches r d)
    (item : HttpRequest × Bool) :
    Matches ⟨item.1 :: r.requests, r.outcome, r.entry, r.world⟩
      ⟨item :: d.items, d.outcome, d.state⟩ :=
  ⟨by rw [hm.requests_eq, List.map_cons], hm.ending_eq, hm.world_eq⟩

/-- One turn of the loop. -/
theorem serve_eq (ctx : ConnectionHttpContext) (w : World σ) :
    serve h env ctx w =
      if ctx.buffer = [] then ⟨[], .waiting, some ctx, w⟩
      else
        match parseHttpRequest ctx {} with
        | .error e => ⟨[], .raised e, some ctx, w⟩
        | .ok (false, ctx, _) => ⟨[], .waiting, some ctx, w⟩
        | .ok (true, ctx', req) =>
          match handleRequest h env { w with totalRequests := w.totalRequests + 1 } req with
          | (.error e, w) => ⟨[req], .raised e, some ctx', w⟩
          | (.ok (), w) =>
            if !ctx'.isKeepAlive then
              ⟨[req], .closed, none, { w with calls := w.calls ++ [.close] }⟩
            else
              ⟨req :: (serve h env ctx'.reset w).requests, (serve h env ctx'.reset w).outcome,
                (serve h env ctx'.reset w).entry, (serve h env ctx'.reset w).world⟩ := by
  rw [serve]
  split
  · rfl
  · split <;> rename_i hp <;> simp only [hp]

/-- **The loop of `OnData` drains the buffer.** -/
theorem serve_matches (ctx : ConnectionHttpContext) (w : World σ) :
    Matches (serve h env ctx w) (Consumer.drain httpDecoder (receive h env) ctx.buffer w) := by
  -- the loop goes on with what the parser has left of the buffer
  induction hn : ctx.buffer.length using Nat.strongRecOn generalizing ctx w with
  | _ n ih =>
    rw [serve_eq]
    by_cases hnil : ctx.buffer = []
    · rw [if_pos hnil, hnil, Consumer.drain_nil]
      exact ⟨rfl, by rw [Received.ending, Option.getD_some, hnil]; rfl, rfl⟩
    rw [if_neg hnil]
    cases hnext : nextRequest ctx.buffer with
    | more =>
      obtain ⟨req, hp⟩ := parseHttpRequest_of_more ctx hnext
      rw [Consumer.drain_more (D := httpDecoder) hnext, hp]
      exact ⟨rfl, rfl, rfl⟩
    | fail e =>
      rw [Consumer.drain_fail (D := httpDecoder) hnext, parseHttpRequest_of_fail ctx hnext]
      exact ⟨rfl, rfl, rfl⟩
    | item item rest =>
      obtain ⟨req, keep⟩ := item
      have hlt : rest.length < ctx.buffer.length := httpDecoder.length_lt hnext
      rw [Consumer.drain_item (D := httpDecoder) hnext, receive,
        parseHttpRequest_of_item ctx hnext]
      dsimp only
      rcases handleRequest h env { w with totalRequests := w.totalRequests + 1 } req
        with ⟨e | ⟨⟩, w'⟩
      · exact ⟨rfl, rfl, rfl⟩
      cases keep with
      | false => exact ⟨rfl, rfl, rfl⟩
      | true =>
        have hrec := ih rest.length (hn ▸ hlt) ⟨rest, ctx.lastActivity, true⟩ w' rfl
        exact hrec.cons (req, true)

/-! ## Where no request asks for the upgrade -/

/-- What the look for an upgrade comes to: nothing, what the parser throws, or the request at the
front, which asks for it. -/
theorem upgradeRequest_cases (ctx : ConnectionHttpContext) :
    upgradeRequest ctx = .ok none
      ∨ (∃ e, upgradeRequest ctx = .error e ∧ nextRequest ctx.buffer = .fail e)
      ∨ ∃ item rest, upgradeRequest ctx = .ok (some item.1)
        ∧ nextRequest ctx.buffer = .item item rest ∧ AsksForUpgrade item.1 := by
  unfold upgradeRequest
  split
  · exact Or.inl rfl
  · dsimp only
    split
    · cases hnext : nextRequest ctx.buffer with
      | more =>
        obtain ⟨req, hp⟩ := parseHttpRequest_of_more ctx hnext
        rw [hp]
        exact Or.inl rfl
      | fail e =>
        rw [parseHttpRequest_of_fail ctx hnext]
        exact Or.inr (Or.inl ⟨e, rfl, rfl⟩)
      | item item rest =>
        rw [parseHttpRequest_of_item ctx hnext]
        dsimp only
        split
        · rename_i hask
          exact Or.inr (Or.inr ⟨item, rest, rfl, rfl, hask⟩)
        · exact Or.inl rfl
    · exact Or.inl rfl

/-- The look for an upgrade throws what the parser throws. -/
theorem nextRequest_of_upgradeRequest_error {ctx : ConnectionHttpContext} {e : StdException}
    (hup : upgradeRequest ctx = .error e) : nextRequest ctx.buffer = .fail e := by
  rcases upgradeRequest_cases ctx with h | ⟨e', h, hnext⟩ | ⟨item, rest, h, -, -⟩
  · cases hup.symm.trans h
  · cases hup.symm.trans h
    exact hnext
  · cases hup.symm.trans h

/-- The look for an upgrade finds a request that asks for it. -/
theorem asks_of_upgradeRequest_some {ctx : ConnectionHttpContext} {req : HttpRequest}
    (hup : upgradeRequest ctx = .ok (some req)) :
    ParsedFrom ctx.buffer req ∧ AsksForUpgrade req := by
  rcases upgradeRequest_cases ctx with h | ⟨e, h, -⟩ | ⟨item, rest, h, hnext, hask⟩
  · cases hup.symm.trans h
  · cases hup.symm.trans h
  · cases hup.symm.trans h
    exact ⟨.front (parseHttpRequest_of_item { buffer := ctx.buffer } hnext), hask⟩

variable (env) in
/-- **`OnData` drains the buffer with the data behind it**, unless it finds an upgrade. -/
theorem onData_matches (hrun : h.running = true) (now : ℕ) (data : Bytes)
    (entry : Option ConnectionHttpContext) (w : World σ)
    (hno : ∀ req, upgradeRequest { entry.getD {} with
      lastActivity := now, buffer := (entry.getD {}).buffer ++ data } ≠ .ok (some req)) :
    Matches (onData h env now data entry w)
      (Consumer.drain httpDecoder (receive h env) ((entry.getD {}).buffer ++ data) w) := by
  unfold onData
  rw [hrun]
  simp only [Bool.not_true, Bool.false_eq_true, if_false]
  cases hup : upgradeRequest { entry.getD {} with
      lastActivity := now, buffer := (entry.getD {}).buffer ++ data } with
  | error e =>
    rw [Consumer.drain_fail (D := httpDecoder) (nextRequest_of_upgradeRequest_error hup)]
    exact ⟨rfl, rfl, rfl⟩
  | ok asked =>
    cases asked with
    | none => exact serve_matches _ w
    | some req => exact absurd hup (hno req)

/-! ## Chunks -/

/-- Only a request that keeps the connection lets the receiver go on. -/
theorem keep_of_receive_goOn {item : HttpRequest × Bool} {w w' : World σ}
    (hr : receive h env item w = (.goOn, w')) : item.2 = true := by
  unfold receive at hr
  split at hr
  · cases hr
  · split at hr
    · assumption
    · cases hr

/-- What the receiver is still waiting for comes from the stream it has been given. -/
theorem noUpgrade_of_waiting {s t rest : Bytes} {w : World σ}
    (hwait : (Consumer.drain httpDecoder (receive h env) s w).outcome = .waiting rest)
    (hno : NoUpgrade (s ++ t)) : NoUpgrade (rest ++ t) := by
  induction hn : s.length using Nat.strongRecOn generalizing s w with
  | _ n ih =>
    cases hnext : nextRequest s with
    | more =>
      rw [Consumer.drain_more (D := httpDecoder) hnext] at hwait
      cases hwait
      exact hno
    | fail e =>
      rw [Consumer.drain_fail (D := httpDecoder) hnext] at hwait
      cases hwait
    | item item rest' =>
      obtain ⟨req, keep⟩ := item
      have hlt : rest'.length < s.length := httpDecoder.length_lt hnext
      have hnext' := httpDecoder.item_append hnext t
      rw [Consumer.drain_item (D := httpDecoder) hnext] at hwait
      rcases hr : receive h env (req, keep) w with ⟨v, w'⟩
      rw [hr] at hwait
      cases v with
      | goOn =>
        obtain rfl : keep = true := keep_of_receive_goOn hr
        exact ih rest'.length (hn ▸ hlt) hwait (hno.rest hnext') rfl
      | stop => cases hwait
      | abort e => cases hwait

/-- One more chunk, unless it brings an upgrade. -/
theorem deliverChunk_matches (hrun : h.running = true) {r : Received σ} {s : Bytes}
    {w : World σ} (hm : Matches r (Consumer.drain httpDecoder (receive h env) s w))
    (chunk : ℕ × Bytes)
    (hno : ∀ rest, (Consumer.drain httpDecoder (receive h env) s w).outcome = .waiting rest →
      ∀ ctx : ConnectionHttpContext, ctx.buffer = rest ++ chunk.2 →
        ∀ req, upgradeRequest ctx ≠ .ok (some req)) :
    Matches (deliverChunk h env r chunk)
      (Consumer.drain httpDecoder (receive h env) (s ++ chunk.2) w) := by
  rw [← Consumer.feed_drain]
  obtain ⟨hreq, hend, hworld⟩ := hm
  obtain ⟨requests, outcome, entry, world⟩ := r
  cases hd : (Consumer.drain httpDecoder (receive h env) s w).outcome with
  | waiting rest =>
    rw [hd] at hend
    cases outcome <;> cases hend
    have hm' := onData_matches env hrun chunk.1 chunk.2 entry world (hno _ hd _ rfl)
    rw [Consumer.feed, hd]
    refine ⟨?_, ?_, ?_⟩
    · simp only [deliverChunk, List.map_append]
      rw [hm'.requests_eq, ← hreq, ← hworld]
    · exact hm'.ending_eq.trans (by rw [← hworld])
    · exact hm'.world_eq.trans (by rw [← hworld])
  | stopped =>
    rw [hd] at hend
    rw [Consumer.feed, hd]
    cases outcome <;> cases hend
    exact ⟨hreq, by rw [hd]; rfl, hworld⟩
  | failed e =>
    rw [hd] at hend
    rw [Consumer.feed, hd]
    cases outcome <;> cases hend
    exact ⟨hreq, by rw [hd]; rfl, hworld⟩

/-- Where no request asks for the upgrade, none is found. -/
theorem upgradeRequest_ne_some_of_waiting {s t rest : Bytes} {w : World σ}
    (hno : NoUpgrade (s ++ t))
    (hwait : (Consumer.drain httpDecoder (receive h env) s w).outcome = .waiting rest)
    (ctx : ConnectionHttpContext) (hctx : ctx.buffer = rest ++ t) (req : HttpRequest) :
    upgradeRequest ctx ≠ .ok (some req) := by
  intro hup
  obtain ⟨hparsed, hasks⟩ := asks_of_upgradeRequest_some hup
  rw [hctx] at hparsed
  exact noUpgrade_of_waiting hwait hno req hparsed hasks

variable (env) in
/-- **The chunks of a connection are received as the stream they make up.** -/
theorem deliver_matches (hrun : h.running = true) (chunks : List (ℕ × Bytes)) (w : World σ)
    (hno : NoUpgrade (chunks.map Prod.snd).flatten) :
    Matches (deliver h env chunks w)
      (Consumer.drain httpDecoder (receive h env) (chunks.map Prod.snd).flatten w) := by
  -- along the chunks, with the stream received so far in front
  have hfold : ∀ (s : Bytes) (r : Received σ),
      Matches r (Consumer.drain httpDecoder (receive h env) s w) →
      NoUpgrade (s ++ (chunks.map Prod.snd).flatten) →
      Matches (chunks.foldl (deliverChunk h env) r)
        (Consumer.drain httpDecoder (receive h env) (s ++ (chunks.map Prod.snd).flatten) w) := by
    clear hno
    induction chunks with
    | nil =>
      intro s r hm _
      rwa [List.map_nil, List.flatten_nil, List.append_nil]
    | cons chunk chunks ih =>
      intro s r hm hno
      rw [List.map_cons, List.flatten_cons, ← List.append_assoc] at hno ⊢
      rw [List.foldl_cons]
      refine ih _ _ (deliverChunk_matches hrun hm chunk fun rest hwait => ?_) hno
      exact upgradeRequest_ne_some_of_waiting hno.of_append hwait
  refine hfold [] _ ?_ hno
  rw [Consumer.drain_nil]
  exact ⟨rfl, rfl, rfl⟩

/-- **How the stream is cut makes no difference.** For every stream in which no request
asks for the speed test and every two ways of cutting it, with any times of arrival, the
same requests are handled, with the same effect, and the connection ends the same: closed,
with the same exception, or open with the same bytes left over. -/
theorem onData_segmentation (h : HttpProtocolHandler σ) (env : Environment σ)
    (hrun : h.running = true) (s : Bytes) (hno : NoSpeedTest s) (w : World σ)
    (chunks chunks' : List (ℕ × Bytes)) (hs : (chunks.map Prod.snd).flatten = s)
    (hs' : (chunks'.map Prod.snd).flatten = s) :
    (deliver h env chunks w).requests = (deliver h env chunks' w).requests
      ∧ (deliver h env chunks w).ending = (deliver h env chunks' w).ending
      ∧ (deliver h env chunks w).world = (deliver h env chunks' w).world := by
  have hm := deliver_matches env hrun chunks w (hs ▸ hno.noUpgrade)
  have hm' := deliver_matches env hrun chunks' w (hs' ▸ hno.noUpgrade)
  rw [hs] at hm
  rw [hs'] at hm'
  exact ⟨hm.requests_eq.trans hm'.requests_eq.symm, hm.ending_eq.trans hm'.ending_eq.symm,
    hm.world_eq.trans hm'.world_eq.symm⟩

/-! ## A stream of one request and a half -/

/-- A request for the one page of `pageServer`, and the beginning of another request. -/
def helloStream : Bytes := lit "GET /hello HTTP/1.1\r\nHost: x\r\n\r\nGET /"

theorem parse_helloStream : parseHttpRequest { buffer := helloStream } {}
    = .ok (true, { buffer := lit "GET /" },
        { method := lit "GET", path := lit "/hello", version := lit "HTTP/1.1" }) := by
  decide +kernel

theorem helloStream_noSpeedTest : NoSpeedTest helloStream := by
  have hrest : ∀ ctx req, parseHttpRequest { buffer := lit "GET /" } {} ≠ .ok (true, ctx, req) := by
    have hmore : nextRequest (lit "GET /") = .more := rfl
    intro ctx req hp
    rw [nextRequest_of_parse hp] at hmore
    cases hmore
  rintro req (hp | ⟨hp, -, hbehind⟩)
  · rw [parse_helloStream] at hp
    cases hp
    decide
  · rw [parse_helloStream] at hp
    cases hp
    cases hbehind with
    | front hp => exact absurd hp (hrest _ _)
    | behind hp => exact absurd hp (hrest _ _)

/-- The stream at once, and cut within the blank line. -/
theorem onData_segmentation_hello :
    let cut := [(0, helloStream.take 30), (1, helloStream.drop 30)]
    (deliver pageServer logoEnvironment [(0, helloStream)] ⟨(), ∅, [], 0⟩).requests
        = (deliver pageServer logoEnvironment cut ⟨(), ∅, [], 0⟩).requests
      ∧ (deliver pageServer logoEnvironment [(0, helloStream)] ⟨(), ∅, [], 0⟩).ending
        = (deliver pageServer logoEnvironment cut ⟨(), ∅, [], 0⟩).ending
      ∧ (deliver pageServer logoEnvironment [(0, helloStream)] ⟨(), ∅, [], 0⟩).world
        = (deliver pageServer logoEnvironment cut ⟨(), ∅, [], 0⟩).world :=
  onData_segmentation pageServer logoEnvironment rfl helloStream helloStream_noSpeedTest _ _ _
    (by simp) (by simp)

end HttpProtocolHandler
