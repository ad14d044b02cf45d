import HttpServer.CheckedParse
import HttpServer.HeaderBlock
import HttpServer.Machine

/-!
# Exceptions in `OnData`

`OnData` runs on the reader thread of a connection, where nothing catches an exception.
Here it is modelled with the checks of `substr` (`Checked.parseHttpRequest`) and with a
total function in the place of `HandleRequest`, so that every exception is one of its own.

There is one source of them: `std::stoul` on the value of a `Content-Length` header that
is not empty, and has no digits behind blanks and a sign, or too many of them
(`UnreadableLength`). `onData_total_iff` says that a call throws exactly when the requests
in the buffer lead to such a header.
-/

/-! ## Lengths that cannot be read -/

/-- The digits that `std::stoul` reads: those behind blanks and a sign. -/
def lengthDigits (value : Bytes) : Bytes :=
  let value := value.dropWhile isSpace
  let unsigned := if value.head? = some 0x2D ∨ value.head? = some 0x2B then value.tail else value
  unsigned.takeWhile isDigit

/-- **A header value that is no length**: it is not empty, and its digits are missing or
denote a number beyond 64 bits. -/
def UnreadableLength (value : Bytes) : Prop :=
  value ≠ [] ∧ (lengthDigits value = [] ∨ 2 ^ 64 ≤ decimal (lengthDigits value))

/-- `std::stoul` by the digits it reads. -/
theorem stoul_eq (value : Bytes) : ∃ negative : Bool,
    stoul value = if (lengthDigits value).isEmpty then .error .invalidArgument
      else if 2 ^ 64 ≤ decimal (lengthDigits value) then .error .outOfRange
      else .ok (if negative then (2 ^ 64 - decimal (lengthDigits value)) % 2 ^ 64
        else decimal (lengthDigits value)) := by
  unfold stoul lengthDigits
  rcases value.dropWhile isSpace with - | ⟨c, t⟩
  · exact ⟨false, rfl⟩
  · by_cases hminus : c = 0x2D
    · subst hminus
      exact ⟨true, rfl⟩
    · by_cases hplus : c = 0x2B
      · subst hplus
        exact ⟨false, rfl⟩
      · refine ⟨false, ?_⟩
        simp only [List.head?_cons, Option.some.injEq, hminus, hplus, or_self, if_false]
        split
        · rename_i hc
          exact absurd (List.cons.inj hc).1 hminus
        · rename_i hc
          exact absurd (List.cons.inj hc).1 hplus
        · rfl

theorem contentLength_error_iff (req : HttpRequest) :
    (∃ e, contentLength req = .error e)
      ↔ UnreadableLength (req.getHeader (lit "Content-Length")) := by
  unfold contentLength UnreadableLength
  cases hvalue : req.getHeader (lit "Content-Length") with
  | nil => exact iff_of_false nofun fun h => h.1 rfl
  | cons c value =>
    obtain ⟨negative, hstoul⟩ := stoul_eq (c :: value)
    rw [if_neg (by simp), hstoul, and_iff_right (List.cons_ne_nil _ _), ← List.isEmpty_iff]
    by_cases hempty : (lengthDigits (c :: value)).isEmpty = true
    · rw [if_pos hempty]
      exact iff_of_true ⟨_, rfl⟩ (Or.inl hempty)
    · rw [if_neg hempty]
      by_cases hbig : 2 ^ 64 ≤ decimal (lengthDigits (c :: value))
      · rw [if_pos hbig]
        exact iff_of_true ⟨_, rfl⟩ (Or.inr hbig)
      · rw [if_neg hbig]
        exact iff_of_false nofun fun h => h.elim hempty hbig

/-- The header block at the front of the buffer announces a length that cannot be read. -/
def BadLength (s : Bytes) : Prop :=
  ∃ headerEnd head, readHead s = some (headerEnd, head)
    ∧ UnreadableLength (head.getHeader (lit "Content-Length"))

/-- **The requests in the buffer lead to such a header block**: it is the first one, or the
one behind requests that are parsed and keep the connection. -/
inductive LeadsToBadLength : Bytes → Prop
  | front {s : Bytes} (h : BadLength s) : LeadsToBadLength s
  | behind {s rest : Bytes} {req : HttpRequest} (h : nextRequest s = .item (req, true) rest)
      (h' : LeadsToBadLength rest) : LeadsToBadLength s

section

variable {s rest : Bytes} {req : HttpRequest} {keep : Bool} {e : StdException}

theorem exists_fail_iff : (∃ e, nextRequest s = .fail e) ↔ BadLength s := by
  simp only [nextRequest_eq_fail_iff, BadLength, ← contentLength_error_iff]
  constructor
  · rintro ⟨e, headerEnd, head, hhead, he⟩
    exact ⟨headerEnd, head, hhead, e, he⟩
  · rintro ⟨headerEnd, head, hhead, e, he⟩
    exact ⟨e, headerEnd, head, hhead, he⟩

theorem leadsToBadLength_of_fail (h : nextRequest s = .fail e) : LeadsToBadLength s :=
  .front (exists_fail_iff.mp ⟨e, h⟩)

theorem not_leadsToBadLength_of_more (h : nextRequest s = .more) : ¬ LeadsToBadLength s := by
  rintro (hbad | ⟨hitem, -⟩)
  · obtain ⟨e, hfail⟩ := exists_fail_iff.mpr hbad
    rw [h] at hfail
    cases hfail
  · rw [h] at hitem
    cases hitem

theorem leadsToBadLength_item_iff (h : nextRequest s = .item (req, keep) rest) :
    LeadsToBadLength s ↔ keep = true ∧ LeadsToBadLength rest := by
  constructor
  · rintro (hbad | ⟨hitem, hrest⟩)
    · obtain ⟨e, hfail⟩ := exists_fail_iff.mpr hbad
      rw [h] at hfail
      cases hfail
    · rw [h] at hitem
      cases hitem
      exact ⟨rfl, hrest⟩
  · rintro ⟨rfl, hrest⟩
    exact .behind h hrest

end

/-! ## The source -/

/-- A call of `OnData`: whether the handler is running, the time, and the data. -/
structure DataCall where
  running : Bool
  now : ℕ
  data : Bytes

namespace Checked

variable {σ : Type*} (handle : World σ → HttpRequest → World σ) (env : Environment σ)

/-- The loop of `OnData` over the requests in the buffer. -/
def serve (ctx : ConnectionHttpContext) (w : World σ) : Received σ :=
  if ctx.buffer = [] then ⟨[], .waiting, some ctx, w⟩
  else
    match hp : parseHttpRequest ctx {} with
    | .error e => ⟨[], .raised e, some ctx, w⟩
    | .ok (false, ctx, _) => ⟨[], .waiting, some ctx, w⟩
    | .ok (true, ctx', req) =>
      let w := handle { w with totalRequests := w.totalRequests + 1 } req
      if !ctx'.isKeepAlive then ⟨[req], .closed, none, { w with calls := w.calls ++ [.close] }⟩
      else
        have : ctx'.buffer.length < ctx.buffer.length :=
          length_buffer_lt ((parseHttpRequest_checked ctx {}).symm.trans hp)
        let r := serve ctx'.reset w
        ⟨req :: r.requests, r.outcome, r.entry, r.world⟩
termination_by ctx.buffer.length

/-- The look for a WebSocket upgrade. -/
def upgradeRequest (ctx : ConnectionHttpContext) : Except StdException (Option HttpRequest) :=
  match Search.find crlfcrlf ctx.buffer with
  | none => .ok none
  | some headerEnd => do
    let headerPart ← substr ctx.buffer 0 headerEnd
    if Search.contains (lit "Upgrade: websocket") headerPart
        || Search.contains (lit "Upgrade: WebSocket") headerPart then
      match parseHttpRequest ctx {} with
      | .error e => .error e
      | .ok (false, _, _) => .ok none
      | .ok (true, _, req) =>
        if HttpProtocolHandler.toLower (req.getHeader (lit "Upgrade")) = lit "websocket"
            ∧ req.path = speedTestPath
        then .ok (some req) else .ok none
    else .ok none

/-- `OnData`, on the entry of `contexts_` for the connection. -/
def onData (call : DataCall) (entry : Option ConnectionHttpContext) (w : World σ) : Received σ :=
  if !call.running then ⟨[], .waiting, entry, w⟩
  else
    let ctx := entry.getD {}
    let ctx := { ctx with lastActivity := call.now, buffer := ctx.buffer ++ call.data }
    match upgradeRequest ctx with
    | .error e => ⟨[], .raised e, some ctx, w⟩
    | .ok (some req) => HttpProtocolHandler.upgrade env ctx req w
    | .ok none => serve handle ctx w

/-- One more call, on a connection that is still open. -/
def deliverCall (r : Received σ) (call : DataCall) : Received σ :=
  match r.outcome with
  | .waiting =>
    let r' := onData handle env call r.entry r.world
    { r' with requests := r.requests ++ r'.requests }
  | _ => r

/-- The calls of `OnData` for one connection. -/
def connection : Machine (Received σ) DataCall Unit where
  step r call := some (deliverCall handle env r call, ())

end Checked

/-! ## The calls that throw -/

/-- What is in the buffer during the call. -/
def DataCall.buffer (call : DataCall) (entry : Option ConnectionHttpContext) : Bytes :=
  (entry.getD {}).buffer ++ call.data

/-- **Nothing in the buffer makes the call throw**: an upgrade request is at its front, or
its requests do not lead to a length that cannot be read. -/
def DataCall.Readable (call : DataCall) (entry : Option ConnectionHttpContext) : Prop :=
  call.running = true →
    (∃ req, UpgradeAtFront (call.buffer entry) req) ∨ ¬ LeadsToBadLength (call.buffer entry)

/-- A call that begins with a length that cannot be read. -/
theorem DataCall.not_readable_of_fail {call : DataCall} {entry : Option ConnectionHttpContext}
    {e : StdException} (hrun : call.running = true)
    (hfail : nextRequest (call.buffer entry) = .fail e) : ¬ call.Readable entry := by
  intro h
  rcases h hrun with ⟨req, hfront⟩ | hlead
  · exact not_upgradeAtFront_of_fail hfail req hfront
  · exact hlead (leadsToBadLength_of_fail hfail)

/-- No exception has left `OnData`. -/
def NoException {σ : Type*} (r : Received σ) : Prop := ∀ e, r.outcome ≠ .raised e

namespace Checked

variable {σ : Type*} {handle : World σ → HttpRequest → World σ} {env : Environment σ}

theorem upgradeRequest_checked (ctx : ConnectionHttpContext) :
    upgradeRequest ctx = HttpProtocolHandler.upgradeRequest ctx := by
  unfold upgradeRequest HttpProtocolHandler.upgradeRequest
  rw [parseHttpRequest_checked]
  cases Search.find crlfcrlf ctx.buffer with
  | none => rfl
  | some headerEnd =>
    dsimp only
    rw [substr_eq (Nat.zero_le _)]
    rfl

/-- One turn of the loop. -/
theorem serve_eq (ctx : ConnectionHttpContext) (w : World σ) :
    serve handle ctx w =
      if ctx.buffer = [] then ⟨[], .waiting, some ctx, w⟩
      else
        match parseHttpRequest ctx {} with
        | .error e => ⟨[], .raised e, some ctx, w⟩
        | .ok (false, ctx, _) => ⟨[], .waiting, some ctx, w⟩
        | .ok (true, ctx', req) =>
          let w := handle { w with totalRequests := w.totalRequests + 1 } req
          if !ctx'.isKeepAlive then
            ⟨[req], .closed, none, { w with calls := w.calls ++ [.close] }⟩
          else
            ⟨req :: (serve handle ctx'.reset w).requests, (serve handle ctx'.reset w).outcome,
              (serve handle ctx'.reset w).entry, (serve handle ctx'.reset w).world⟩ := by
  rw [serve]
  split
  · rfl
  · split <;> rename_i hp <;> simp only [hp]

/-- **The loop throws exactly where the requests lead to a length that cannot be read.** -/
theorem serve_raised_iff (ctx : ConnectionHttpContext) (w : World σ) :
    (∃ e, (serve handle ctx w).outcome = .raised e) ↔ LeadsToBadLength ctx.buffer := by
  -- the loop goes on with what the parser has left of the buffer
  induction hn : ctx.buffer.length using Nat.strongRecOn generalizing ctx w with
  | _ n ih =>
    rw [serve_eq, parseHttpRequest_checked]
    by_cases hnil : ctx.buffer = []
    · rw [if_pos hnil, hnil]
      exact iff_of_false nofun (not_leadsToBadLength_of_more rfl)
    · rw [if_neg hnil]
      cases hnext : nextRequest ctx.buffer with
      | more =>
        obtain ⟨req, hp⟩ := parseHttpRequest_of_more ctx hnext
        rw [hp]
        exact iff_of_false nofun (not_leadsToBadLength_of_more hnext)
      | fail e =>
        rw [parseHttpRequest_of_fail ctx hnext]
        exact iff_of_true ⟨e, rfl⟩ (leadsToBadLength_of_fail hnext)
      | item item rest =>
        obtain ⟨req, keep⟩ := item
        have hlt : rest.length < ctx.buffer.length := httpDecoder.length_lt hnext
        rw [parseHttpRequest_of_item ctx hnext, leadsToBadLength_item_iff hnext]
        cases keep with
        | false => exact iff_of_false nofun nofun
        | true =>
          rw [and_iff_right rfl]
          exact ih rest.length (hn ▸ hlt) ⟨rest, ctx.lastActivity, true⟩ _ rfl

variable (handle env) in
/-- A call throws exactly where it is not readable. -/
theorem onData_raised_iff (call : DataCall) (entry : Option ConnectionHttpContext)
    (w : World σ) :
    (∃ e, (onData handle env call entry w).outcome = .raised e) ↔ ¬ call.Readable entry := by
  unfold onData DataCall.Readable
  cases call.running with
  | false => exact iff_of_false nofun (by simp)
  | true =>
    simp only [Bool.not_true, Bool.false_eq_true, if_false, upgradeRequest_checked, true_imp_iff,
      not_or, not_not]
    set ctx : ConnectionHttpContext := { entry.getD {} with
      lastActivity := call.now, buffer := (entry.getD {}).buffer ++ call.data } with hctx
    have hbuf : call.buffer entry = ctx.buffer := rfl
    rw [hbuf]
    cases hup : HttpProtocolHandler.upgradeRequest ctx with
    | error e =>
      have hfail := HttpProtocolHandler.nextRequest_of_upgradeRequest_error hup
      refine iff_of_true ⟨e, rfl⟩ ⟨?_, leadsToBadLength_of_fail hfail⟩
      rintro ⟨req, hfront⟩
      exact not_upgradeAtFront_of_fail hfail req hfront
    | ok asked =>
      cases asked with
      | none =>
        have hno : ¬ ∃ req, UpgradeAtFront ctx.buffer req := by
          rintro ⟨req, hfront⟩
          rw [← HttpProtocolHandler.upgradeRequest_eq_some_iff, hup] at hfront
          cases hfront
        rw [and_iff_right hno]
        exact serve_raised_iff ctx w
      | some req =>
        have hfront := (HttpProtocolHandler.upgradeRequest_eq_some_iff ctx req).mp hup
        refine iff_of_false ?_ fun h => h.1 ⟨req, hfront⟩
        obtain ⟨-, ⟨keep, rest, hitem⟩, -⟩ := hfront
        obtain ⟨length, hlength⟩ := contentLength_of_item hitem
        rintro ⟨e, he⟩
        simp only [HttpProtocolHandler.upgrade, hlength] at he
        split at he
        · cases he
        · split at he <;> cases he

/-- One more call, of which the outcome is known already or left to `OnData`. -/
theorem deliverCall_noException_iff {r : Received σ} (hr : NoException r) (call : DataCall) :
    NoException (deliverCall handle env r call)
      ↔ (r.outcome = .waiting → call.Readable r.entry) := by
  unfold NoException deliverCall
  cases hout : r.outcome with
  | waiting =>
    have hiff := onData_raised_iff handle env call r.entry r.world
    constructor
    · intro h _
      by_contra hn
      obtain ⟨e, he⟩ := hiff.mpr hn
      exact h e he
    · exact fun h e he => hiff.mp ⟨e, he⟩ (h rfl)
  | closed => exact iff_of_true (fun e he => hr e he) nofun
  | upgraded => exact iff_of_true (fun e he => hr e he) nofun
  | raised e => exact absurd hout (hr e)

end Checked

open Checked in
/-- **Exactly when no exception leaves `OnData`.** For every entry of `contexts_` for a
connection and every sequence of calls on it, with any total function in the place of
`HandleRequest`, no call throws if and only if each call that is made while the connection
is open is readable. -/
theorem HttpProtocolHandler.onData_total_iff {σ : Type*}
    (handle : World σ → HttpRequest → World σ) (env : Environment σ)
    (entry : Option ConnectionHttpContext) (calls : List DataCall) (w : World σ) :
    (connection handle env).Always NoException ⟨[], .waiting, entry, w⟩ calls
      ↔ (connection handle env).Along
        (fun r call => r.outcome = .waiting → call.Readable r.entry)
        ⟨[], .waiting, entry, w⟩ calls := by
  refine Machine.always_iff_along (I := NoException) (fun _ h => h) ?_ ?_
    (fun e he => nomatch he)
  · intro r call r' hr hcall hstep
    cases hstep
    exact (deliverCall_noException_iff hr call).mpr hcall
  · intro r call r' hr hcall hstep
    cases hstep
    exact fun h => hcall ((deliverCall_noException_iff hr call).mp h)

/-! ## `HandleRequest` in its place -/

namespace HttpProtocolHandler

variable {σ : Type*} {h : HttpProtocolHandler σ} {env : Environment σ}
  {handle : World σ → HttpRequest → World σ}

/-- The loop with `HandleRequest`, where this returns. -/
theorem serve_checked (hreturn : ∀ w req, handleRequest h env w req = (.ok (), handle w req))
    (ctx : ConnectionHttpContext) (w : World σ) :
    serve h env ctx w = Checked.serve handle ctx w := by
  induction hn : ctx.buffer.length using Nat.strongRecOn generalizing ctx w with
  | _ n ih =>
    rw [serve_eq, Checked.serve_eq, parseHttpRequest_checked]
    split
    · rfl
    · cases hp : parseHttpRequest ctx {} with
      | error e => rfl
      | ok r =>
        obtain ⟨complete, ctx', req⟩ := r
        cases complete with
        | false => rfl
        | true =>
          have hlt : ctx'.buffer.length < n := hn ▸ length_buffer_lt hp
          dsimp only
          rw [hreturn]
          dsimp only
          rw [ih _ hlt ctx'.reset _ rfl]

/-- **A chunk is a call**, for a handler whose `HandleRequest` always returns. -/
theorem deliverChunk_checked
    (hreturn : ∀ w req, handleRequest h env w req = (.ok (), handle w req)) (r : Received σ)
    (chunk : ℕ × Bytes) :
    deliverChunk h env r chunk
      = Checked.deliverCall handle env r ⟨h.running, chunk.1, chunk.2⟩ := by
  have hdata : onData h env chunk.1 chunk.2 r.entry r.world
      = Checked.onData handle env ⟨h.running, chunk.1, chunk.2⟩ r.entry r.world := by
    unfold onData Checked.onData
    dsimp only
    rw [Checked.upgradeRequest_checked]
    cases h.running with
    | false => rfl
    | true =>
      simp only [Bool.not_true, Bool.false_eq_true, if_false]
      cases HttpProtocolHandler.upgradeRequest _ with
      | error e => rfl
      | ok asked =>
        cases asked with
        | none => exact serve_checked hreturn _ _
        | some req => rfl
  unfold deliverChunk Checked.deliverCall
  cases r.outcome with
  | waiting => rw [hdata]
  | _ => rfl

/-! ## A length without digits -/

/-- A request that announces a length of `abc` bytes throws, and one that announces 20
nines. -/
theorem onData_not_total :
    (¬ (Checked.connection (fun w _ => w) logoEnvironment).Always NoException
        ⟨[], .waiting, none, ⟨(), ∅, [], 0⟩⟩
        [⟨true, 0, lit "GET / HTTP/1.1\r\nContent-Length: abc\r\nHost: x\r\n\r\n"⟩])
      ∧ ¬ (Checked.connection (fun w _ => w) logoEnvironment).Always NoException
        ⟨[], .waiting, none, ⟨(), ∅, [], 0⟩⟩
        [⟨true, 0, lit "GET / HTTP/1.1\r\nContent-Length: 99999999999999999999\r\n" ++
          lit "Host: x\r\n\r\n"⟩] := by
  have hthrows : ∀ data e, parseHttpRequest { buffer := data } {} = .error e →
      ¬ (Checked.connection (fun w _ => w) logoEnvironment).Always NoException
        ⟨[], .waiting, none, ⟨(), ∅, [], 0⟩⟩ [⟨true, 0, data⟩] := by
    intro data e hp halways
    have hopen : NoException (⟨[], .waiting, none, ⟨(), ∅, [], 0⟩⟩ : Received Unit) :=
      fun e he => nomatch he
    have hcall := (Checked.deliverCall_noException_iff hopen _).mp (halways.2 _ rfl)
    refine DataCall.not_readable_of_fail (e := e) rfl ?_ (hcall rfl)
    exact nextRequest_of_parse_error hp
  exact ⟨hthrows _ .invalidArgument (by decide +kernel), hthrows _ .outOfRange (by decide +kernel)⟩

end HttpProtocolHandler
