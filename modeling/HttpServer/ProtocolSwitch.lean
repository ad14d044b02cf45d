import HttpServer.HttpText

/-!
# The switch from HTTP to a WebSocket session

A connection may send requests, then an upgrade request for the speed test, and behind it
the bytes of the session. `OnData` looks for the upgrade once a call, before it parses
requests, and where it finds one it drops the entry of the connection with all that is left
in its buffer. From then on the data go to `OnData` of the session.

So the switch depends on how the stream is cut. An upgrade request that becomes complete
together with a request before it is handled as an ordinary one, and bytes of the session
that come together with the end of the upgrade request are lost. `switch_lossless_iff`
says that these are the only cuts that go wrong, for earlier requests that the parser reads
whole and keeps the connection for, and an upgrade request that the code recognises. The
requests in it are any that HTTP delimits, read by the parser or not.
-/

/-- The text of requests one after the other. -/
def requestTexts (requests : List HttpText) : Bytes := (requests.map HttpText.text).flatten

/-- **An upgrade request that the code recognises**: its header block spells the upgrade,
and what is parsed from it asks for the upgrade and has a key. -/
structure HttpText.Recognised (u : HttpText) : Prop where
  read : ∃ item rest, nextRequest u.text = .item item rest
  names : NamesUpgrade u.text
  asks : AsksForUpgrade u.request
  key : u.request.getHeader (lit "Sec-WebSocket-Key") ≠ []

/-- **The cut the code needs**: a chunk ends with `u` and has nothing in front of it but
bytes of `u`, and what has come of `u` before is no request to the parser yet. -/
def CutAround (p : Bytes) (u : HttpText) (chunks : List Bytes) : Prop :=
  ∃ before chunk after v, chunks = before ++ chunk :: after ∧ before.flatten = p ++ v
    ∧ v ++ chunk = u.text ∧ nextRequest v = .more

/-- A connection, and the data passed to `OnData` of its session. -/
structure Switched (σ : Type*) where
  http : Received σ
  session : List Bytes

namespace HttpProtocolHandler

variable {σ : Type*} (h : HttpProtocolHandler σ) (env : Environment σ)

/-- One more chunk, which goes to the data callback that is set. -/
def switchChunk (s : Switched σ) (chunk : ℕ × Bytes) : Switched σ :=
  match s.http.outcome with
  | .upgraded => { s with session := s.session ++ [chunk.2] }
  | _ => { s with http := deliverChunk h env s.http chunk }

/-- The chunks of a new connection. -/
def deliverSwitched (chunks : List (ℕ × Bytes)) (w : World σ) : Switched σ :=
  chunks.foldl (switchChunk h env) ⟨⟨[], .waiting, none, w⟩, []⟩

/-- Requests are counted and handled one after the other. -/
def handleAll : List HttpRequest → World σ → Except StdException (World σ)
  | [], w => .ok w
  | req :: reqs, w =>
    match handleRequest h env { w with totalRequests := w.totalRequests + 1 } req with
    | (.error e, _) => .error e
    | (.ok (), w) => handleAll reqs w

/-- **The switch has lost nothing**: the requests in front of the upgrade request have been
handled, each with its request line and its body, the upgrade request has been answered with
one handshake and one session, and this session has been given the bytes behind it. -/
structure Lossless (s : Switched σ) (earlier : List HttpText) (u : HttpText) (rest : Bytes)
    (w : World σ) : Prop where
  upgraded : s.http.outcome = .upgraded
  handled : List.Forall₂ HttpText.Handled earlier s.http.requests
  world_eq : ∃ w', handleAll h env s.http.requests w = .ok w' ∧ s.http.world = { w' with
    calls := w'.calls
      ++ [.handshake (u.request.getHeader (lit "Sec-WebSocket-Key")), .setDataCallback] }
  session_eq : s.session.flatten = rest

end HttpProtocolHandler

/-! ## The upgrade request -/

/-- What the parser reads of a text. -/
theorem HttpText.request_eq {r : HttpText} {item : HttpRequest × Bool} {rest : Bytes}
    (h : nextRequest r.text = .item item rest) : r.request = item.1 := by
  rw [HttpText.request, h]

/-- What the parser reads of a text that it reads whole and keeps the connection for. -/
theorem HttpText.Kept.nextRequest_eq {r : HttpText} (h : r.Kept) :
    nextRequest r.text = .item (r.request, true) [] := by
  obtain ⟨req, hitem⟩ := h
  rw [HttpText.request_eq hitem, hitem]

/-- **The look for an upgrade at the text of a request.** -/
theorem HttpText.upgradeRequest_eq_some_iff {u : HttpText} {ctx : ConnectionHttpContext}
    (hctx : ctx.buffer = u.text) (req : HttpRequest) :
    HttpProtocolHandler.upgradeRequest ctx = .ok (some req)
      ↔ (∃ item rest, nextRequest u.text = .item item rest) ∧ NamesUpgrade u.text
        ∧ AsksForUpgrade u.request ∧ req = u.request := by
  rw [HttpProtocolHandler.upgradeRequest_eq_some_iff, hctx, UpgradeAtFront]
  constructor
  · rintro ⟨hnames, ⟨keep, rest, hitem⟩, hasks⟩
    obtain rfl : u.request = req := HttpText.request_eq hitem
    exact ⟨⟨_, rest, hitem⟩, hnames, hasks, rfl⟩
  · rintro ⟨⟨⟨req', keep⟩, rest, hitem⟩, hnames, hasks, rfl⟩
    have hreq : u.request = req' := HttpText.request_eq hitem
    exact ⟨hnames, ⟨keep, rest, hreq ▸ hitem⟩, hasks⟩

/-! ## The requests in front -/

theorem requestTexts_cons (r : HttpText) (rs : List HttpText) :
    requestTexts (r :: rs) = r.text ++ requestTexts rs := by
  rw [requestTexts, List.map_cons, List.flatten_cons, requestTexts]

/-- A cut of two pieces falls into the first or behind it. -/
theorem append_eq_append_cases {β : Type*} {s v a b : List β} (h : s ++ v = a ++ b) :
    (∃ t, t ≠ [] ∧ s ++ t = a ∧ v = t ++ b) ∨ ∃ s', s = a ++ s' ∧ s' ++ v = b := by
  rcases List.append_eq_append_iff.mp h with ⟨t, ht, hv⟩ | ⟨s', hs, hb⟩
  · by_cases hnil : t = []
    · subst hnil
      rw [List.append_nil] at ht
      exact Or.inr ⟨[], by rw [List.append_nil, ht], hv⟩
    · exact Or.inl ⟨t, hnil, ht.symm, hv⟩
  · exact Or.inr ⟨s', hs, hb.symm⟩

/-- As long as what is behind the requests is none, only these are parsed. -/
theorem noUpgrade_of_part {earlier : List HttpText} (hkept : ∀ r ∈ earlier, r.Kept)
    (hplain : ∀ r ∈ earlier, ¬ AsksForUpgrade r.request) {part s v : Bytes}
    (hpart : nextRequest part = .more) (hs : s ++ v = requestTexts earlier ++ part) :
    NoUpgrade s := by
  have hmore : ∀ {s : Bytes} {ctx : ConnectionHttpContext} {req : HttpRequest},
      nextRequest s = .more → parseHttpRequest { buffer := s } {} ≠ .ok (true, ctx, req) := by
    intro s ctx req hnext hp
    rw [nextRequest_of_parse hp] at hnext
    cases hnext
  induction earlier generalizing s with
  | nil =>
    have hs' : s ++ v = part := hs
    rw [← hs'] at hpart
    have hfront : nextRequest s = .more := by
      cases hnext : nextRequest s with
      | more => rfl
      | item a rest => cases (httpDecoder.item_append hnext v).symm.trans hpart
      | fail e => cases (httpDecoder.fail_append hnext v).symm.trans hpart
    rintro req (hp | ⟨hp, -, -⟩) <;> exact absurd hp (hmore hfront)
  | cons r rs ih =>
    have hr := (hkept r List.mem_cons_self).nextRequest_eq
    rw [requestTexts_cons, List.append_assoc] at hs
    rcases append_eq_append_cases hs with ⟨t, ht, htext, -⟩ | ⟨s', rfl, hs'⟩
    · have hfront := r.nextRequest_part hr htext ht
      rintro req (hp | ⟨hp, -, -⟩) <;> exact absurd hp (hmore hfront)
    · have hnext := r.nextRequest_append hr s'
      have hrest := ih (fun r hm => hkept r (List.mem_cons_of_mem _ hm))
        (fun r hm => hplain r (List.mem_cons_of_mem _ hm)) hs'
      rintro req (hp | ⟨hp, -, hbehind⟩)
      · rw [nextRequest_of_parse hp] at hnext
        injection hnext with hreq _
        rw [(Prod.mk.inj hreq).1]
        exact hplain r List.mem_cons_self
      · rw [nextRequest_of_parse hp] at hnext
        injection hnext with _ hbuffer
        rw [hbuffer] at hbehind
        exact hrest req hbehind

namespace HttpProtocolHandler

variable {σ : Type*} {h : HttpProtocolHandler σ} {env : Environment σ}

theorem handleAll_cons {req : HttpRequest} {reqs : List HttpRequest} {w w' : World σ}
    (hall : handleAll h env (req :: reqs) w = .ok w') :
    ∃ w₁, receive h env (req, true) w = (.goOn, w₁) ∧ handleAll h env reqs w₁ = .ok w' := by
  unfold handleAll at hall
  unfold receive
  split at hall
  · cases hall
  · rename_i w₁ hreq
    exact ⟨w₁, by simp only [hreq, if_true], hall⟩

/-- **The requests in front are received**, and what is behind them is drained next. -/
theorem drain_requestTexts {earlier : List HttpText} (hkept : ∀ r ∈ earlier, r.Kept)
    {w w' : World σ} (hall : handleAll h env (earlier.map HttpText.request) w = .ok w')
    (s : Bytes) :
    ∃ items, items.map Prod.fst = earlier.map HttpText.request
      ∧ Consumer.drain httpDecoder (receive h env) (requestTexts earlier ++ s) w
        = ⟨items ++ (Consumer.drain httpDecoder (receive h env) s w').items,
          (Consumer.drain httpDecoder (receive h env) s w').outcome,
          (Consumer.drain httpDecoder (receive h env) s w').state⟩ := by
  induction earlier generalizing w with
  | nil =>
    cases hall
    exact ⟨[], rfl, rfl⟩
  | cons r rs ih =>
    have hr := (hkept r List.mem_cons_self).nextRequest_eq
    obtain ⟨w₁, hreceive, hrest⟩ := handleAll_cons hall
    obtain ⟨items, hitems, hdrain⟩ := ih (fun r hm => hkept r (List.mem_cons_of_mem _ hm)) hrest
    refine ⟨(r.request, true) :: items, by rw [List.map_cons, hitems, List.map_cons], ?_⟩
    rw [requestTexts_cons, List.append_assoc,
      Consumer.drain_item (D := httpDecoder) (r.nextRequest_append hr _), hreceive]
    dsimp only
    rw [hdrain]
    rfl

/-- **Where the requests in front have been handled and nothing else, they were read whole**, and
a part of what is behind them is waiting. -/
theorem kept_of_handled {earlier : List HttpText} {s v x part : Bytes} {w : World σ}
    (hs : s ++ v = requestTexts earlier ++ x)
    (hwait : (Consumer.drain httpDecoder (receive h env) s w).outcome = .waiting part)
    (hhandled : List.Forall₂ HttpText.Handled earlier
      ((Consumer.drain httpDecoder (receive h env) s w).items.map Prod.fst)) :
    (∀ r ∈ earlier, r.Kept)
      ∧ (Consumer.drain httpDecoder (receive h env) s w).items.map Prod.fst
        = earlier.map HttpText.request
      ∧ s = requestTexts earlier ++ part ∧ nextRequest part = .more := by
  induction earlier generalizing s w with
  | nil =>
    cases hnext : nextRequest s with
    | more =>
      rw [Consumer.drain_more (D := httpDecoder) hnext] at hwait ⊢
      cases hwait
      exact ⟨fun r hr => absurd hr List.not_mem_nil, rfl, rfl, hnext⟩
    | fail e =>
      rw [Consumer.drain_fail (D := httpDecoder) hnext] at hwait
      cases hwait
    | item item rest =>
      rw [Consumer.drain_item (D := httpDecoder) hnext] at hhandled
      rcases hreceive : receive h env item w with ⟨verdict, w₁⟩
      rw [hreceive] at hhandled
      cases verdict <;> cases hhandled
  | cons r rs ih =>
    cases hnext : nextRequest s with
    | more =>
      rw [Consumer.drain_more (D := httpDecoder) hnext] at hhandled
      cases hhandled
    | fail e =>
      rw [Consumer.drain_fail (D := httpDecoder) hnext] at hwait
      cases hwait
    | item item rest =>
      obtain ⟨req, keep⟩ := item
      rw [requestTexts_cons, List.append_assoc] at hs
      rw [Consumer.drain_item (D := httpDecoder) hnext] at hwait hhandled ⊢
      rcases hreceive : receive h env (req, keep) w with ⟨verdict, w₁⟩
      rw [hreceive] at hwait hhandled
      cases verdict with
      | stop => cases hwait
      | abort e => cases hwait
      | goOn =>
        obtain rfl : keep = true := keep_of_receive_goOn hreceive
        obtain ⟨hreq, hrest⟩ := List.forall₂_cons.mp hhandled
        -- the request is handled with its body, so that is where it ends
        have happend : nextRequest (s ++ v) = .item (req, true) (rest ++ v) :=
          httpDecoder.item_append hnext v
        rw [hs] at happend
        obtain ⟨hbehind, hwhole⟩ := r.eq_of_handled happend hreq
        obtain ⟨hkept, hitems, hsplit, hmore⟩ := ih hbehind hwait hrest
        have hfront : s = r.text ++ rest := by
          rw [← hbehind, ← List.append_assoc] at hs
          exact List.append_cancel_right hs
        refine ⟨?_, ?_, ?_, hmore⟩
        · intro r' hr'
          rcases List.mem_cons.mp hr' with rfl | hr'
          · exact ⟨req, hwhole⟩
          · exact hkept r' hr'
        · dsimp only
          rw [List.map_cons, hitems, List.map_cons, HttpText.request_eq hwhole]
        · rw [hfront, hsplit, requestTexts_cons, List.append_assoc]

/-! ## Chunks -/

/-- What the receiver of requests makes of a stream is no switch. -/
theorem Matches.outcome_ne_upgraded {r : Received σ}
    {d : Consumer.Run UInt8 (HttpRequest × Bool) StdException (World σ)} (hm : Matches r d) :
    r.outcome ≠ .upgraded := by
  intro hup
  have hend := hm.ending_eq
  rw [Received.ending, hup] at hend
  cases hd : d.outcome <;> rw [hd] at hend <;> cases hend

/-- Before the switch a chunk goes to `OnData` of the handler. -/
theorem switchChunk_of_ne {r : Received σ} (hr : r.outcome ≠ .upgraded) (session : List Bytes)
    (chunk : ℕ × Bytes) :
    switchChunk h env ⟨r, session⟩ chunk = ⟨deliverChunk h env r chunk, session⟩ := by
  unfold switchChunk
  split
  · rename_i hup
    exact absurd hup hr
  · rfl

/-- The handler goes on as it would without a session. -/
theorem switchChunk_http (s : Switched σ) (chunk : ℕ × Bytes) :
    (switchChunk h env s chunk).http = deliverChunk h env s.http chunk := by
  unfold switchChunk
  split
  · rename_i hup
    rw [deliverChunk, hup]
  · rfl

theorem deliver_append_singleton (chunks : List (ℕ × Bytes)) (chunk : ℕ × Bytes) (w : World σ) :
    deliver h env (chunks ++ [chunk]) w = deliverChunk h env (deliver h env chunks w) chunk := by
  rw [deliver, List.foldl_append, List.foldl_cons, List.foldl_nil, deliver]

theorem deliverSwitched_append_singleton (chunks : List (ℕ × Bytes)) (chunk : ℕ × Bytes)
    (w : World σ) :
    deliverSwitched h env (chunks ++ [chunk]) w
      = switchChunk h env (deliverSwitched h env chunks w) chunk := by
  rw [deliverSwitched, List.foldl_append, List.foldl_cons, List.foldl_nil, deliverSwitched]

variable (h env) in
theorem http_deliverSwitched (chunks : List (ℕ × Bytes)) (w : World σ) :
    (deliverSwitched h env chunks w).http = deliver h env chunks w := by
  induction chunks using List.reverseRecOn with
  | nil => rfl
  | append_singleton chunks chunk ih =>
    rw [deliverSwitched_append_singleton, switchChunk_http, ih, deliver_append_singleton]

/-- A handler that has not been waiting does nothing any more. -/
theorem deliverChunk_of_ne {r : Received σ} (hr : r.outcome ≠ .waiting) (chunk : ℕ × Bytes) :
    deliverChunk h env r chunk = r := by
  unfold deliverChunk
  split
  · rename_i hwait
    exact absurd hwait hr
  · rfl

/-- Until the switch the session gets nothing. -/
theorem deliverSwitched_of_ne {chunks : List (ℕ × Bytes)} {w : World σ}
    (hne : (deliver h env chunks w).outcome ≠ .upgraded) :
    deliverSwitched h env chunks w = ⟨deliver h env chunks w, []⟩ := by
  induction chunks using List.reverseRecOn with
  | nil => rfl
  | append_singleton chunks chunk ih =>
    rw [deliver_append_singleton] at hne ⊢
    have hbefore : (deliver h env chunks w).outcome ≠ .upgraded := by
      intro hup
      rw [deliverChunk_of_ne (by rw [hup]; exact ConnOutcome.noConfusion)] at hne
      exact hne hup
    rw [deliverSwitched_append_singleton, ih hbefore, switchChunk_of_ne hbefore]

/-- Behind the switch every chunk goes to the session. -/
theorem foldl_switchChunk_upgraded {s : Switched σ} (hs : s.http.outcome = .upgraded)
    (chunks : List (ℕ × Bytes)) :
    chunks.foldl (switchChunk h env) s = ⟨s.http, s.session ++ chunks.map Prod.snd⟩ := by
  induction chunks generalizing s with
  | nil => rw [List.map_nil, List.append_nil, List.foldl_nil]
  | cons chunk chunks ih =>
    have hchunk : switchChunk h env s chunk = ⟨s.http, s.session ++ [chunk.2]⟩ := by
      rw [switchChunk, hs]
    have hrest := ih (s := ⟨s.http, s.session ++ [chunk.2]⟩) hs
    rw [List.foldl_cons, hchunk, hrest, List.map_cons, List.append_assoc]
    rfl

/-- **The chunk with the switch**, and what the session is given behind it. -/
theorem deliverSwitched_of_switch {before after : List (ℕ × Bytes)} {chunk : ℕ × Bytes}
    {w : World σ} (hwait : (deliver h env before w).outcome = .waiting)
    (hup : (deliverChunk h env (deliver h env before w) chunk).outcome = .upgraded) :
    deliverSwitched h env (before ++ chunk :: after) w
      = ⟨deliverChunk h env (deliver h env before w) chunk, after.map Prod.snd⟩ := by
  have hopen : (deliver h env before w).outcome ≠ .upgraded := by
    rw [hwait]
    exact ConnOutcome.noConfusion
  have hbefore := deliverSwitched_of_ne hopen
  rw [deliverSwitched] at hbefore
  rw [deliverSwitched, List.foldl_append, hbefore, List.foldl_cons, switchChunk_of_ne hopen,
    foldl_switchChunk_upgraded hup, List.nil_append]

/-- Where there has been a switch, there is a chunk with it. -/
theorem exists_switch {chunks : List (ℕ × Bytes)} {w : World σ}
    (hup : (deliver h env chunks w).outcome = .upgraded) :
    ∃ before chunk after, chunks = before ++ chunk :: after
      ∧ (deliver h env before w).outcome = .waiting
      ∧ (deliverChunk h env (deliver h env before w) chunk).outcome = .upgraded := by
  induction chunks using List.reverseRecOn with
  | nil => cases hup
  | append_singleton chunks chunk ih =>
    rw [deliver_append_singleton] at hup
    by_cases hwait : (deliver h env chunks w).outcome = .waiting
    · exact ⟨chunks, chunk, [], rfl, hwait, hup⟩
    · rw [deliverChunk_of_ne hwait] at hup
      obtain ⟨before, chunk', after, rfl, hbefore⟩ := ih hup
      exact ⟨before, chunk', after ++ [chunk], by rw [List.append_assoc, List.cons_append], hbefore⟩

variable (env) in
/-- **The switch**: a chunk that completes an upgrade request. -/
theorem deliverChunk_upgrade (hrun : h.running = true) {r : Received σ} {v : Bytes}
    (hend : r.ending = .leftOpen v) {chunk : ℕ × Bytes} {req : HttpRequest}
    (hup : UpgradeAtFront (v ++ chunk.2) req) :
    deliverChunk h env r chunk =
      if req.getHeader (lit "Sec-WebSocket-Key") = [] then
        ⟨r.requests, .closed, none, { r.world with calls := r.world.calls ++ [.close] }⟩
      else if env.handshakeSent (req.getHeader (lit "Sec-WebSocket-Key")) r.world.user then
        ⟨r.requests, .upgraded, none, { r.world with
          calls := r.world.calls
            ++ [.handshake (req.getHeader (lit "Sec-WebSocket-Key")), .setDataCallback] }⟩
      else
        ⟨r.requests, .closed, none, { r.world with
          calls := r.world.calls
            ++ [.handshake (req.getHeader (lit "Sec-WebSocket-Key")), .close, .close] }⟩ := by
  obtain ⟨-, ⟨keep, rest, hitem⟩, -⟩ := id hup
  obtain ⟨length, hlength⟩ := contentLength_of_item hitem
  obtain ⟨requests, outcome, entry, world⟩ := r
  cases outcome <;> cases hend
  have hfound : upgradeRequest { entry.getD {} with
      lastActivity := chunk.1, buffer := (entry.getD {}).buffer ++ chunk.2 } = .ok (some req) :=
    (upgradeRequest_eq_some_iff _ req).mpr hup
  simp only [deliverChunk, onData, hrun, Bool.not_true, Bool.false_eq_true, if_false, hfound,
    upgrade, hlength, List.isEmpty_iff]
  split
  · rw [List.append_nil]
  · split <;> rw [List.append_nil]

/-- A chunk without the end of an upgrade request at the front is received as HTTP. -/
theorem deliverChunk_outcome_of_no_upgrade (hrun : h.running = true) {r : Received σ} {v : Bytes}
    (hend : r.ending = .leftOpen v) {chunk : ℕ × Bytes}
    (hno : ∀ req, ¬ UpgradeAtFront (v ++ chunk.2) req) :
    (deliverChunk h env r chunk).outcome ≠ .upgraded := by
  obtain ⟨requests, outcome, entry, world⟩ := r
  cases outcome <;> cases hend
  exact (onData_matches env hrun chunk.1 chunk.2 entry world fun req hup =>
    hno req ((upgradeRequest_eq_some_iff _ req).mp hup)).outcome_ne_upgraded

/-- A connection that is still open has been received as HTTP. -/
theorem matches_of_waiting (hrun : h.running = true) {chunks : List (ℕ × Bytes)} {w : World σ}
    (hwait : (deliver h env chunks w).outcome = .waiting) :
    Matches (deliver h env chunks w)
      (Consumer.drain httpDecoder (receive h env) (chunks.map Prod.snd).flatten w) := by
  induction chunks using List.reverseRecOn with
  | nil =>
    rw [List.map_nil, List.flatten_nil, Consumer.drain_nil]
    exact ⟨rfl, rfl, rfl⟩
  | append_singleton chunks chunk ih =>
    rw [deliver_append_singleton] at hwait ⊢
    have hbefore : (deliver h env chunks w).outcome = .waiting := by
      by_contra hne
      rw [deliverChunk_of_ne hne] at hwait
      exact hne hwait
    have hm := ih hbefore
    rw [List.map_append, List.flatten_append, List.map_singleton, List.flatten_singleton]
    refine deliverChunk_matches hrun hm chunk fun rest hrest ctx hctx req hup => ?_
    -- an upgrade at the front does not leave the connection waiting
    have hend := hm.ending_eq
    rw [hrest] at hend
    rw [upgradeRequest_eq_some_iff, hctx] at hup
    rw [deliverChunk_upgrade env hrun hend hup] at hwait
    split at hwait
    · cases hwait
    · split at hwait <;> cases hwait

/-! ## What the switch needs -/

/-- While the handler waits for more, the receiver does, too, with the same bytes. -/
theorem exists_part_of_waiting (hrun : h.running = true) {chunks : List (ℕ × Bytes)} {w : World σ}
    (hwait : (deliver h env chunks w).outcome = .waiting) :
    ∃ part, (Consumer.drain httpDecoder (receive h env)
        (chunks.map Prod.snd).flatten w).outcome = .waiting part
      ∧ (deliver h env chunks w).ending = .leftOpen part := by
  have hout := (matches_of_waiting hrun hwait).ending_eq
  have hend : (deliver h env chunks w).ending
      = .leftOpen ((deliver h env chunks w).entry.getD {}).buffer := by
    rw [Received.ending, hwait]
  cases hd : (Consumer.drain httpDecoder (receive h env)
    (chunks.map Prod.snd).flatten w).outcome with
  | waiting part =>
    rw [hd] at hout
    exact ⟨part, rfl, hout⟩
  | stopped =>
    rw [hend, hd] at hout
    cases hout
  | failed e =>
    rw [hend, hd] at hout
    cases hout

/-- Where nothing is lost, the requests in front have been read whole, and the upgrade request is
recognised and cut as the code needs it. -/
theorem Lossless.conditions (hrun : h.running = true) {earlier : List HttpText} {u : HttpText}
    {rest : Bytes} {chunks : List (ℕ × Bytes)}
    (hs : (chunks.map Prod.snd).flatten = requestTexts earlier ++ u.text ++ rest) {w : World σ}
    (hl : Lossless h env (deliverSwitched h env chunks w) earlier u rest w) :
    (∀ r ∈ earlier, r.Kept) ∧ (∃ w', handleAll h env (earlier.map HttpText.request) w = .ok w')
      ∧ u.Recognised ∧ CutAround (requestTexts earlier) u (chunks.map Prod.snd) := by
  obtain ⟨hup, hhandled, ⟨w', hall, -⟩, hsession⟩ := hl
  rw [http_deliverSwitched] at hup
  obtain ⟨before, chunk, after, rfl, hwait, hswitch⟩ := exists_switch hup
  rw [deliverSwitched_of_switch hwait hswitch] at hhandled hall hsession
  -- the session has been given all that is behind the upgrade request
  have hfront : (before.map Prod.snd).flatten ++ chunk.2 = requestTexts earlier ++ u.text := by
    have hbehind : (after.map Prod.snd).flatten = rest := hsession
    rw [List.map_append, List.map_cons, List.flatten_append, List.flatten_cons, hbehind,
      ← List.append_assoc] at hs
    exact List.append_cancel_right hs
  have hm := matches_of_waiting hrun hwait
  obtain ⟨part, hpart, hopen⟩ := exists_part_of_waiting hrun hwait
  -- an upgrade request has been found in front, and it has a key
  obtain ⟨req, hfound⟩ : ∃ req, UpgradeAtFront (part ++ chunk.2) req := by
    by_contra hno
    exact deliverChunk_outcome_of_no_upgrade hrun hopen (fun req hreq => hno ⟨req, hreq⟩) hswitch
  have hchunk := deliverChunk_upgrade env hrun hopen hfound
  have hkey : req.getHeader (lit "Sec-WebSocket-Key") ≠ [] := by
    intro hnil
    rw [hchunk, if_pos hnil] at hswitch
    cases hswitch
  have hrequests : (deliverChunk h env (deliver h env before w) chunk).requests
      = (deliver h env before w).requests := by
    rw [hchunk, if_neg hkey]
    split <;> rfl
  dsimp only at hhandled hall
  rw [hrequests, hm.requests_eq] at hhandled hall
  obtain ⟨hkept, hitems, hsplit, hmore⟩ := kept_of_handled hfront hpart hhandled
  have hu : part ++ chunk.2 = u.text := by
    rw [hsplit, List.append_assoc] at hfront
    exact List.append_cancel_left hfront
  rw [hu] at hfound
  have hctx : upgradeRequest { buffer := u.text } = .ok (some req) :=
    (upgradeRequest_eq_some_iff _ req).mpr hfound
  obtain ⟨hread, hnames, hasks, rfl⟩ := (HttpText.upgradeRequest_eq_some_iff rfl req).mp hctx
  exact ⟨hkept, ⟨w', hitems ▸ hall⟩, ⟨hread, hnames, hasks, hkey⟩, before.map Prod.snd, chunk.2,
    after.map Prod.snd, part, by rw [List.map_append, List.map_cons], hsplit, hu, hmore⟩

/-- Where all that is so, nothing is lost. -/
theorem lossless_of_cut (hrun : h.running = true)
    (hsent : ∀ key user, env.handshakeSent key user = true) {earlier : List HttpText}
    (hplain : ∀ r ∈ earlier, ¬ AsksForUpgrade r.request) {u : HttpText} {rest : Bytes}
    {chunks : List (ℕ × Bytes)}
    (hs : (chunks.map Prod.snd).flatten = requestTexts earlier ++ u.text ++ rest)
    {w w' : World σ} (hkept : ∀ r ∈ earlier, r.Kept)
    (hall : handleAll h env (earlier.map HttpText.request) w = .ok w') (hu : u.Recognised)
    (hcut : CutAround (requestTexts earlier) u (chunks.map Prod.snd)) :
    Lossless h env (deliverSwitched h env chunks w) earlier u rest w := by
  obtain ⟨hread, hnames, hasks, hkey⟩ := hu
  obtain ⟨before', chunk', after', v, hsplit, hbefore, hchunk, hmore⟩ := hcut
  obtain ⟨before, tail, rfl, rfl, htail⟩ := List.map_eq_append_iff.mp hsplit
  obtain ⟨chunk, after, rfl, rfl, rfl⟩ := List.map_eq_cons_iff.mp htail
  have hno : NoUpgrade (before.map Prod.snd).flatten :=
    noUpgrade_of_part hkept hplain hmore (by rw [List.append_nil, hbefore])
  have hm := deliver_matches env hrun before w hno
  obtain ⟨items, hitems, hdrain⟩ := drain_requestTexts hkept hall v
  rw [Consumer.drain_more (D := httpDecoder) hmore] at hdrain
  rw [hbefore, hdrain] at hm
  have hwait : (deliver h env before w).outcome = .waiting := by
    have hend := hm.ending_eq
    rw [Received.ending] at hend
    cases hout : (deliver h env before w).outcome <;> rw [hout] at hend <;> first | rfl | cases hend
  have hfound : UpgradeAtFront (v ++ chunk.2) u.request := by
    rw [hchunk]
    exact (upgradeRequest_eq_some_iff { buffer := u.text } _).mp
      ((HttpText.upgradeRequest_eq_some_iff rfl _).mpr ⟨hread, hnames, hasks, rfl⟩)
  have hswitch := deliverChunk_upgrade env hrun hm.ending_eq hfound
  rw [if_neg hkey, if_pos (hsent _ _)] at hswitch
  rw [deliverSwitched_of_switch hwait (by rw [hswitch]), hswitch]
  have hrequests : (deliver h env before w).requests = earlier.map HttpText.request := by
    rw [hm.requests_eq, List.append_nil, hitems]
  refine ⟨rfl, ?_, ⟨w', ?_, ?_⟩, ?_⟩
  · dsimp only
    rw [hrequests, List.forall₂_map_right_iff, List.forall₂_same]
    exact fun r hr => r.handled_of_nextRequest (hkept r hr).nextRequest_eq
  · dsimp only
    rw [hrequests, hall]
  · dsimp only
    rw [hm.world_eq]
  · rw [List.map_append, List.map_cons, List.flatten_append, List.flatten_cons, hbefore,
      ← List.append_assoc, List.append_assoc (requestTexts earlier), hchunk] at hs
    exact List.append_cancel_left hs

/-- **When the switch loses nothing.** For every list of requests that do not ask for the upgrade,
every request `u` behind them, every string behind that and every way of cutting the stream, where
the handshake can be sent: the earlier requests are handled, each with its body, `u` creates the
one session and the session is given what is behind it, exactly if the parser reads each of the
earlier requests whole and keeps the connection, handling them does not throw, `u` is recognised as
an upgrade request, and a chunk ends with `u` and has nothing else in it. -/
theorem switch_lossless_iff (h : HttpProtocolHandler σ) (env : Environment σ)
    (hrun : h.running = true) (hsent : ∀ key user, env.handshakeSent key user = true)
    (earlier : List HttpText) (hplain : ∀ r ∈ earlier, ¬ AsksForUpgrade r.request) (u : HttpText)
    (rest : Bytes) (chunks : List (ℕ × Bytes))
    (hs : (chunks.map Prod.snd).flatten = requestTexts earlier ++ u.text ++ rest)
    (w : World σ) :
    Lossless h env (deliverSwitched h env chunks w) earlier u rest w
      ↔ (∀ r ∈ earlier, r.Kept)
        ∧ (∃ w', handleAll h env (earlier.map HttpText.request) w = .ok w') ∧ u.Recognised
        ∧ CutAround (requestTexts earlier) u (chunks.map Prod.snd) := by
  constructor
  · exact fun hl => hl.conditions hrun hs
  · rintro ⟨hkept, ⟨w', hall⟩, hu, hcut⟩
    exact lossless_of_cut hrun hsent hplain hs hkept hall hu hcut

/-! ## A request, an upgrade request and a frame -/

theorem isToken_get : IsToken (lit "GET") := isToken_of_all (List.cons_ne_nil _ _) rfl

theorem isToken_version : IsToken (lit "HTTP/1.1") := isToken_of_all (List.cons_ne_nil _ _) rfl

theorem isToken_hello : IsToken (lit "/hello") := isToken_of_all (List.cons_ne_nil _ _) rfl

theorem isToken_speedTestPath : IsToken speedTestPath := isToken_of_all (List.cons_ne_nil _ _) rfl

/-- The header line of `getHello`. -/
def hostLine : Bytes := lit "Host: x\r\n"

theorem find_head_hello :
    Search.find crlfcrlf
        (requestLineOf (lit "GET") (lit "/hello") (lit "HTTP/1.1") ++ crlf ++ hostLine ++ crlf)
      = some (requestLineOf (lit "GET") (lit "/hello") (lit "HTTP/1.1") ++ hostLine).length :=
  rfl

/-- A request for the one page of `pageServer`. -/
def getHello : HttpText where
  method := lit "GET"
  target := lit "/hello"
  version := lit "HTTP/1.1"
  fields := hostLine
  body := []
  method_isToken := isToken_get
  target_isToken := isToken_hello
  version_isToken := isToken_version
  find_head := find_head_hello

/-- The header lines of `askSpeedTest`. -/
def upgradeLines : Bytes := lit "Upgrade: websocket\r\nSec-WebSocket-Key: a2V5\r\nHost: x\r\n"

theorem find_head_speedTest :
    Search.find crlfcrlf
        (requestLineOf (lit "GET") speedTestPath (lit "HTTP/1.1") ++ crlf ++ upgradeLines ++ crlf)
      = some (requestLineOf (lit "GET") speedTestPath (lit "HTTP/1.1") ++ upgradeLines).length :=
  rfl

/-- A request for the speed test. -/
def askSpeedTest : HttpText where
  method := lit "GET"
  target := speedTestPath
  version := lit "HTTP/1.1"
  fields := upgradeLines
  body := []
  method_isToken := isToken_get
  target_isToken := isToken_speedTestPath
  version_isToken := isToken_version
  find_head := find_head_speedTest

theorem nextRequest_getHello : nextRequest getHello.text = .item
    ({ method := lit "GET", path := lit "/hello", version := lit "HTTP/1.1" }, true) [] :=
  nextRequest_of_parse (show _ = Except.ok (true, ({} : ConnectionHttpContext), _) by
    decide +kernel)

theorem nextRequest_askSpeedTest : nextRequest askSpeedTest.text = .item
    ({ method := lit "GET", path := speedTestPath, version := lit "HTTP/1.1"
       headers := ((∅ : StringMap).insert (lit "Upgrade") (lit "websocket")).insert
        (lit "Sec-WebSocket-Key") (lit "a2V5") }, true) [] :=
  nextRequest_of_parse (show _ = Except.ok (true, ({} : ConnectionHttpContext), _) by
    decide +kernel)

theorem askSpeedTest_recognised : askSpeedTest.Recognised where
  read := ⟨_, _, nextRequest_askSpeedTest⟩
  names := ⟨80, by decide +kernel, by decide +kernel⟩
  asks := by
    rw [HttpText.request_eq nextRequest_askSpeedTest]
    unfold AsksForUpgrade
    decide +kernel
  key := by
    rw [HttpText.request_eq nextRequest_askSpeedTest]
    decide +kernel

/-- Nothing is lost of the two requests and a ping in three chunks. -/
theorem switch_lossless_ping :
    Lossless pageServer logoEnvironment
        (deliverSwitched pageServer logoEnvironment
          [(0, getHello.text), (1, askSpeedTest.text), (2, [0x89, 0x00])] ⟨(), ∅, [], 0⟩)
        [getHello] askSpeedTest [0x89, 0x00] ⟨(), ∅, [], 0⟩ := by
  have hrequest := HttpText.request_eq nextRequest_getHello
  have hplain : ∀ r ∈ [getHello], ¬ AsksForUpgrade r.request := by
    rintro r hr ⟨-, hpath⟩
    rw [List.mem_singleton.mp hr, hrequest] at hpath
    exact absurd hpath (by decide)
  have hkept : ∀ r ∈ [getHello], r.Kept := by
    intro r hr
    rw [List.mem_singleton.mp hr]
    exact ⟨_, nextRequest_getHello⟩
  have hcut : CutAround (requestTexts [getHello]) askSpeedTest
      [getHello.text, askSpeedTest.text, [0x89, 0x00]] :=
    ⟨[getHello.text], askSpeedTest.text, [[0x89, 0x00]], [], rfl, by simp [requestTexts], rfl, rfl⟩
  refine (switch_lossless_iff pageServer logoEnvironment rfl (fun _ _ => rfl) [getHello] hplain
    askSpeedTest [0x89, 0x00] [(0, getHello.text), (1, askSpeedTest.text), (2, [0x89, 0x00])]
    (by simp [requestTexts]) ⟨(), ∅, [], 0⟩).mpr ⟨hkept, ?_, askSpeedTest_recognised, hcut⟩
  rw [List.map_singleton, hrequest]
  exact ⟨_, rfl⟩

/-- The ping is lost if it comes in one chunk with the upgrade request, and there is no session if
the upgrade request comes in one chunk with the request before. -/
theorem switch_not_lossless :
    (¬ Lossless pageServer logoEnvironment
        (deliverSwitched pageServer logoEnvironment [(0, askSpeedTest.text ++ [0x89, 0x00])]
          ⟨(), ∅, [], 0⟩) [] askSpeedTest [0x89, 0x00] ⟨(), ∅, [], 0⟩)
      ∧ ¬ Lossless pageServer logoEnvironment
        (deliverSwitched pageServer logoEnvironment [(0, getHello.text ++ askSpeedTest.text)]
          ⟨(), ∅, [], 0⟩) [getHello] askSpeedTest [] ⟨(), ∅, [], 0⟩ := by
  have hopen : (⟨[], .waiting, none, ⟨(), ∅, [], 0⟩⟩ : Received Unit).outcome ≠ .upgraded :=
    nofun
  constructor
  · intro hlossless
    have hsession := hlossless.session_eq
    rw [deliverSwitched, List.foldl_cons, List.foldl_nil, switchChunk_of_ne hopen] at hsession
    cases hsession
  · intro hlossless
    have hup := hlossless.upgraded
    revert hup
    decide +kernel

end HttpProtocolHandler
