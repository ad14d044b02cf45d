import HttpServer.HttpMessage

/-!
# Parsing HTTP requests

`HttpProtocolHandler::ParseHttpRequest` of `application/http/http_protocol_handler.cpp`.
It looks for the empty line in the buffer of the connection, reads the request line
and the header lines in front of it, waits for the body if there is a
`Content-Length`, and takes what it has parsed off the buffer.

The header part ends *before* the line terminator of the last header line, and the
loop over the header lines gives up where it finds no terminator. So the last header
line of every request is dropped, and a request without header lines is never
complete: `parseHttpRequest_not_inverse` says that no request at all is parsed back
from its text.
-/

/-- `ConnectionHttpContext`; a time is a number of ticks. -/
structure ConnectionHttpContext where
  buffer : Bytes := []
  lastActivity : ℕ := 0
  isKeepAlive : Bool := true
  deriving DecidableEq

/-- `Reset`. -/
def ConnectionHttpContext.reset (ctx : ConnectionHttpContext) : ConnectionHttpContext :=
  { ctx with isKeepAlive := true }

/-- The end of the header block. -/
def crlfcrlf : Bytes := [0x0D, 0x0A, 0x0D, 0x0A]

/-- `max_body_size_`. -/
def maxBodySize : ℕ := 10 * 1024 * 1024

/-! ## The source -/

/-- The three tokens of the request line. -/
def parseRequestLine (requestLine : Bytes) : Option (Bytes × Bytes × Bytes) :=
  (extractToken requestLine).bind fun (method, s) =>
    (extractToken s).bind fun (path, s) =>
      (extractToken s).map fun (version, _) => (method, path, version)

/-- A blank or a tab. -/
def isBlank (c : UInt8) : Bool := c == 0x20 || c == 0x09

/-- One header line. -/
def parseHeaderLine (req : HttpRequest) (headerLine : Bytes) : HttpRequest :=
  match Search.find (lit ":") headerLine with
  | none => req
  | some colonPos =>
    req.addHeader (headerLine.take colonPos) ((headerLine.drop (colonPos + 1)).dropWhile isBlank)

/-- The loop over the header lines, on what is left of the header part. -/
def parseHeaderLines (rest : Bytes) (req : HttpRequest) : HttpRequest :=
  if h : rest = [] then req
  else
    match Search.find crlf rest with
    | none => req
    | some lineEnd =>
      have : (rest.drop (lineEnd + 2)).length < rest.length := by
        have := List.length_pos_of_ne_nil h
        rw [List.length_drop]
        omega
      parseHeaderLines (rest.drop (lineEnd + 2)) (parseHeaderLine req (rest.take lineEnd))
termination_by rest.length

/-- The content length that the headers announce. -/
def contentLength (req : HttpRequest) : Except StdException ℕ :=
  let contentLengthStr := req.getHeader (lit "Content-Length")
  if contentLengthStr.isEmpty then .ok 0 else stoul contentLengthStr

/-- From the request line to the content length: the request so far, and the path,
the version and the length of the body, or `none` where the source returns `false`. -/
def parseHeaderPart (headerPart : Bytes) (req : HttpRequest) :
    Except StdException (HttpRequest × Option (Bytes × Bytes × ℕ)) :=
  match Search.find crlf headerPart with
  | none => .ok (req, none)
  | some lineEnd =>
    match parseRequestLine (headerPart.take lineEnd) with
    | none => .ok (req, none)
    | some (method, path, version) =>
      let req := parseHeaderLines (headerPart.drop (lineEnd + 2)) { req with method, path, version }
      match contentLength req with
      | .error e => .error e
      | .ok length =>
        if maxBodySize < length then .ok (req, none) else .ok (req, some (path, version, length))

/-- The rest of the request, once its body is there. -/
def completeRequest (req : HttpRequest) (path : Bytes) (length : ℕ) (body : Bytes) : HttpRequest :=
  let req := if 0 < length then { req with body } else req
  let req :=
    match Search.find (lit "?") path with
    | none => req
    | some queryPos => { req with path := path.take queryPos }
  if req.method = lit "POST"
      && Search.contains (lit "application/x-www-form-urlencoded")
      (req.getHeader (lit "Content-Type"))
  then req.parseFormData else req

/-- Whether the connection is kept after the request. -/
def keepAlive (req : HttpRequest) (version : Bytes) : Bool :=
  let connHeader := req.getHeader (lit "Connection")
  connHeader == lit "keep-alive" || (connHeader.isEmpty && version == lit "HTTP/1.1")

/-- `ParseHttpRequest`: the result, and the context and the request behind the
references. -/
def parseHttpRequest (ctx : ConnectionHttpContext) (req : HttpRequest) :
    Except StdException (Bool × ConnectionHttpContext × HttpRequest) :=
  match Search.find crlfcrlf ctx.buffer with
  | none => .ok (false, ctx, req)
  | some headerEnd =>
    match parseHeaderPart (ctx.buffer.take headerEnd) req with
    | .error e => .error e
    | .ok (req, none) => .ok (false, ctx, req)
    | .ok (req, some (path, version, length)) =>
      let bodyStart := headerEnd + 4
      if ctx.buffer.length < bodyStart + length then .ok (false, ctx, req)
      else
        let req := completeRequest req path length ((ctx.buffer.drop bodyStart).take length)
        let ctx :=
          { ctx with
            isKeepAlive := keepAlive req version
            buffer := ctx.buffer.drop (bodyStart + length) }
        .ok (true, ctx, req)

/-! ## What a successful call has read -/

@[simp] theorem completeRequest_headers (req : HttpRequest) (path : Bytes) (length : ℕ)
    (body : Bytes) : (completeRequest req path length body).headers = req.headers := by
  unfold completeRequest
  cases Search.find (lit "?") path <;> simp only <;> split_ifs <;> simp

/-- **A successful call**: where the header block ends, what its header part was
parsed to, and that the body is there. -/
theorem parseHttpRequest_true {ctx ctx' : ConnectionHttpContext} {req req' : HttpRequest}
    (h : parseHttpRequest ctx req = .ok (true, ctx', req')) :
    ∃ (headerEnd length : ℕ) (head : HttpRequest) (path version : Bytes),
      Search.find crlfcrlf ctx.buffer = some headerEnd
      ∧ parseHeaderPart (ctx.buffer.take headerEnd) req = .ok (head, some (path, version, length))
      ∧ headerEnd + 4 + length ≤ ctx.buffer.length
      ∧ req' = completeRequest head path length ((ctx.buffer.drop (headerEnd + 4)).take length)
      ∧ ctx' = { ctx with
          isKeepAlive := keepAlive req' version
          buffer := ctx.buffer.drop (headerEnd + 4 + length) } := by
  unfold parseHttpRequest at h
  cases hfind : Search.find crlfcrlf ctx.buffer with
  | none =>
    rw [hfind] at h
    cases h
  | some headerEnd =>
    simp only [hfind] at h
    cases hhead : parseHeaderPart (ctx.buffer.take headerEnd) req with
    | error e =>
      rw [hhead] at h
      cases h
    | ok r =>
      obtain ⟨head, p⟩ := r
      rw [hhead] at h
      cases p with
      | none => cases h
      | some p =>
        obtain ⟨path, version, length⟩ := p
        simp only at h
        split at h
        · cases h
        · rename_i hle
          cases h
          exact ⟨headerEnd, length, head, path, version, rfl, hhead, by omega, rfl, rfl⟩

/-- A header part that is parsed has a request line with a terminator, and the
header lines are those behind it. -/
theorem parseHeaderPart_some {headerPart : Bytes} {req head : HttpRequest}
    {p : Bytes × Bytes × ℕ} (h : parseHeaderPart headerPart req = .ok (head, some p)) :
    ∃ (lineEnd : ℕ) (method path version : Bytes), Search.find crlf headerPart = some lineEnd
      ∧ head
        = parseHeaderLines (headerPart.drop (lineEnd + 2)) { req with method, path, version } := by
  unfold parseHeaderPart at h
  cases hfind : Search.find crlf headerPart with
  | none =>
    rw [hfind] at h
    cases h
  | some lineEnd =>
    simp only [hfind] at h
    cases hline : parseRequestLine (headerPart.take lineEnd) with
    | none =>
      rw [hline] at h
      cases h
    | some r =>
      obtain ⟨method, path, version⟩ := r
      simp only [hline] at h
      split at h
      · cases h
      · split at h
        · cases h
        · cases h
          exact ⟨lineEnd, method, path, version, rfl, rfl⟩

/-! ## The text of a request -/

/-- A token of the request line. -/
def IsToken (s : Bytes) : Prop := s ≠ [] ∧ ∀ c ∈ s, isSpace c = false

theorem isToken_of_all {s : Bytes} (hne : s ≠ []) (h : s.all (fun c => !isSpace c) = true) :
    IsToken s :=
  ⟨hne, fun c hc => by simpa using List.all_eq_true.mp h c hc⟩

/-- **A request as a client writes it**: what the request line consists of, the
headers with distinct names, and the body, which a `Content-Length` header announces
unless it is empty. -/
structure RequestText where
  method : Bytes
  path : Bytes
  version : Bytes
  headers : List (Bytes × Bytes)
  body : Bytes
  method_isToken : IsToken method
  path_isToken : IsToken path
  version_isToken : IsToken version
  path_noQuery : 0x3F ∉ path
  keys_nodup : (headers.map Prod.fst).Nodup
  key_ne_nil : ∀ h ∈ headers, h.1 ≠ []
  key_noSeparator : ∀ h ∈ headers, 0x3A ∉ h.1 ∧ 0x0D ∉ h.1 ∧ 0x0A ∉ h.1
  value_noBreak : ∀ h ∈ headers, 0x0D ∉ h.2 ∧ 0x0A ∉ h.2
  value_noBlank : ∀ h ∈ headers, ∀ c ∈ h.2.head?, isBlank c = false
  body_announced : body ≠ [] → (lit "Content-Length", toDecimal body.length) ∈ headers
    ∧ body.length ≤ maxBodySize
  body_unannounced : body = [] → lit "Content-Length" ∉ headers.map Prod.fst

/-- The headers of a list of header lines. -/
def headerMap (headers : List (Bytes × Bytes)) : StringMap :=
  headers.foldl (fun m h => m.insert h.1 h.2) ∅

/-- A header line, without its terminator. -/
def headerLine (h : Bytes × Bytes) : Bytes := h.1 ++ lit ": " ++ h.2

namespace RequestText

variable (r : RequestText)

def requestLine : Bytes := r.method ++ lit " " ++ r.path ++ lit " " ++ r.version

/-- **The text of a request**: the request line and the header lines, each with its
terminator, the empty line, and the body. -/
def serialise : Bytes :=
  r.requestLine ++ crlf ++ (r.headers.map fun h => headerLine h ++ crlf).flatten ++ crlf ++ r.body

end RequestText

/-! ## Where the header block ends -/

theorem cr_notMem_of_isToken {s : Bytes} (h : IsToken s) : 0x0D ∉ s := fun hmem =>
  absurd (h.2 _ hmem) (by decide)

theorem RequestText.cr_notMem_requestLine (r : RequestText) : 0x0D ∉ r.requestLine := by
  have hm := cr_notMem_of_isToken r.method_isToken
  have hp := cr_notMem_of_isToken r.path_isToken
  have hv := cr_notMem_of_isToken r.version_isToken
  have hs : (0x0D : UInt8) ∉ lit " " := by decide
  simp only [requestLine, List.mem_append]
  tauto

theorem RequestText.cr_notMem_headerLine (r : RequestText) {h : Bytes × Bytes}
    (hmem : h ∈ r.headers) : 0x0D ∉ headerLine h := by
  have hk := (r.key_noSeparator h hmem).2.1
  have hv := (r.value_noBreak h hmem).1
  have hs : (0x0D : UInt8) ∉ lit ": " := by decide
  simp only [headerLine, List.mem_append]
  tauto

/-- Behind lines that are not empty and have no carriage return, the first empty
line is the first one there is. -/
theorem find_crlfcrlf {lines : List Bytes} (hcr : ∀ l ∈ lines, 0x0D ∉ l)
    (hne : ∀ l ∈ lines, l ≠ []) (t : Bytes) :
    Search.find crlfcrlf ((lines.map fun l => crlf ++ l).flatten ++ (crlfcrlf ++ t))
      = some (lines.map fun l => crlf ++ l).flatten.length := by
  induction lines with
  | nil => exact Search.find_of_prefix (List.prefix_append _ t)
  | cons l lines ih =>
    obtain ⟨c, l', hl⟩ := List.exists_cons_of_ne_nil (hne l List.mem_cons_self)
    have hc : 0x0D ∉ l := hcr l List.mem_cons_self
    have hrest := ih (fun l h => hcr l (List.mem_cons_of_mem _ h))
      (fun l h => hne l (List.mem_cons_of_mem _ h))
    have hlf : (0x0D : UInt8) ∉ 0x0A :: l := by
      rw [List.mem_cons, not_or]
      exact ⟨by decide, hc⟩
    have hne' : (0x0D : UInt8) ≠ c := by
      rintro rfl
      exact hc (by rw [hl]; exact List.mem_cons_self)
    have hsplit : ((l :: lines).map fun l => crlf ++ l).flatten ++ (crlfcrlf ++ t)
        = 0x0D :: ((0x0A :: l) ++ ((lines.map fun l => crlf ++ l).flatten ++ (crlfcrlf ++ t))) := by
      simp [crlf]
    have hpre : ¬ crlfcrlf.isPrefixOf (0x0D ::
        ((0x0A :: l) ++ ((lines.map fun l => crlf ++ l).flatten ++ (crlfcrlf ++ t)))) = true := by
      rw [hl]
      simp [crlfcrlf, List.isPrefixOf, hne']
    rw [hsplit, Search.find, if_neg hpre, crlfcrlf, Search.find_append_of_notMem hlf]
    rw [crlfcrlf] at hrest
    rw [hrest]
    simp [crlf]
    omega

/-! ## The header lines that are parsed -/

theorem parseHeaderLine_headerLine {h : Bytes × Bytes} (hk : 0x3A ∉ h.1)
    (hv : ∀ c ∈ h.2.head?, isBlank c = false) (req : HttpRequest) :
    parseHeaderLine req (headerLine h) = req.addHeader h.1 h.2 := by
  have hfind : Search.find (lit ":") (headerLine h) = some h.1.length := by
    show Search.find [0x3A] (h.1 ++ [0x3A, 0x20] ++ h.2) = _
    rw [List.append_assoc]
    exact Search.find_append_pattern hk (0x20 :: h.2)
  have hdrop : (headerLine h).drop (h.1.length + 1) = 0x20 :: h.2 := by
    show (h.1 ++ [0x3A, 0x20] ++ h.2).drop _ = _
    rw [List.append_assoc, ← List.drop_drop, List.drop_left]
    rfl
  have hvalue : (0x20 :: h.2).dropWhile isBlank = h.2 := by
    rw [List.dropWhile_cons_of_pos (by decide)]
    cases hval : h.2 with
    | nil => rfl
    | cons c v =>
      rw [hval] at hv
      exact List.dropWhile_cons_of_neg (by simp [hv c rfl])
  unfold parseHeaderLine
  rw [hfind]
  simp only [hdrop, hvalue]
  rw [headerLine, List.append_assoc, List.take_left]

/-- **The last header line is not parsed**: the loop ends at a line without a
terminator. -/
theorem parseHeaderLines_append {lines : List Bytes} {last : Bytes} (hcr : ∀ l ∈ lines, 0x0D ∉ l)
    (hlast : 0x0D ∉ last) (req : HttpRequest) :
    parseHeaderLines ((lines.map fun l => l ++ crlf).flatten ++ last) req
      = lines.foldl parseHeaderLine req := by
  induction lines generalizing req with
  | nil =>
    rw [parseHeaderLines]
    have hnone : Search.find crlf last = none := Search.find_eq_none_of_notMem hlast
    simp only [List.map_nil, List.flatten_nil, List.nil_append, hnone]
    split <;> rfl
  | cons l lines ih =>
    have hc : 0x0D ∉ l := hcr l List.mem_cons_self
    set t := (lines.map fun l => l ++ crlf).flatten ++ last with ht
    have hsplit : ((l :: lines).map fun l => l ++ crlf).flatten ++ last = l ++ (crlf ++ t) := by
      simp [ht]
    have hne : l ++ (crlf ++ t) ≠ [] := by simp [crlf]
    have hfind : Search.find crlf (l ++ (crlf ++ t)) = some l.length :=
      Search.find_append_pattern hc t
    have hdrop : (l ++ (crlf ++ t)).drop (l.length + 2) = t := by
      rw [← List.drop_drop, List.drop_left]
      rfl
    rw [hsplit, parseHeaderLines, dif_neg hne, hfind]
    simp only [hdrop, List.take_left, List.foldl_cons]
    exact ih (fun l h => hcr l (List.mem_cons_of_mem _ h)) _

/-- Terminators in front of the lines and one behind, or one in front and
terminators behind the lines. -/
theorem crlf_append_flatten (lines : List Bytes) :
    crlf ++ (lines.map fun l => l ++ crlf).flatten
      = (lines.map fun l => crlf ++ l).flatten ++ crlf := by
  induction lines with
  | nil => rfl
  | cons l lines ih =>
    simp only [List.map_cons, List.flatten_cons, List.append_assoc] at ih ⊢
    rw [ih]

theorem headerMap_append (headers : List (Bytes × Bytes)) (h : Bytes × Bytes) :
    headerMap (headers ++ [h]) = (headerMap headers).insert h.1 h.2 := by
  rw [headerMap, List.foldl_append]
  rfl

theorem lookup_headerMap_of_notMem {headers : List (Bytes × Bytes)} {key : Bytes}
    (h : key ∉ headers.map Prod.fst) : (headerMap headers).lookup key = none := by
  induction headers using List.reverseRecOn with
  | nil => rfl
  | append_singleton headers last ih =>
    rw [List.map_append, List.mem_append, not_or] at h
    have hne : key ≠ last.1 := fun he => h.2 (by simp [he])
    rw [headerMap_append, Finmap.lookup_insert_of_ne _ hne, ih h.1]

/-- Parsing header lines adds the headers they stand for. -/
theorem foldl_parseHeaderLine {headers : List (Bytes × Bytes)}
    (hk : ∀ h ∈ headers, 0x3A ∉ h.1) (hv : ∀ h ∈ headers, ∀ c ∈ h.2.head?, isBlank c = false)
    {req : HttpRequest} (hreq : req.headers = ∅) :
    ((headers.map headerLine).foldl parseHeaderLine req).headers = headerMap headers := by
  induction headers using List.reverseRecOn with
  | nil => exact hreq
  | append_singleton headers last ih =>
    have hmem : last ∈ headers ++ [last] := by simp
    rw [List.map_append, List.foldl_append, headerMap_append]
    show (parseHeaderLine _ (headerLine last)).headers = _
    rw [parseHeaderLine_headerLine (hk last hmem) (hv last hmem), HttpRequest.addHeader,
      ih (fun h hm => hk h (List.mem_append_left _ hm))
        (fun h hm => hv h (List.mem_append_left _ hm))]

namespace RequestText

variable (r : RequestText)

/-- The header part that the parser cuts out of the text of a request: the request line and
the header lines, without the last terminator. -/
def headerPart : Bytes :=
  r.requestLine ++ ((r.headers.map headerLine).map fun l => crlf ++ l).flatten

/-- The text of a request, split where the parser splits it. -/
theorem serialise_eq : r.serialise = r.headerPart ++ (crlfcrlf ++ r.body) := by
  have hlines : r.headers.map (fun h => headerLine h ++ crlf)
      = (r.headers.map headerLine).map fun l => l ++ crlf := by
    rw [List.map_map]
    rfl
  have hmove := crlf_append_flatten (r.headers.map headerLine)
  simp only [serialise, headerPart, hlines, List.append_assoc] at hmove ⊢
  rw [← List.append_assoc crlf, hmove]
  simp [crlf, crlfcrlf]

/-- The header part is found in front of the empty line. -/
theorem find_headerPart_append (t : Bytes) :
    Search.find crlfcrlf (r.headerPart ++ (crlfcrlf ++ t)) = some r.headerPart.length := by
  have hcr : ∀ l ∈ r.headers.map headerLine, 0x0D ∉ l := by
    intro l hl
    obtain ⟨h, hmem, rfl⟩ := List.mem_map.mp hl
    exact r.cr_notMem_headerLine hmem
  have hne : ∀ l ∈ r.headers.map headerLine, l ≠ [] := by
    intro l hl
    obtain ⟨h, hmem, rfl⟩ := List.mem_map.mp hl
    simp [headerLine, r.key_ne_nil h hmem]
  have hblock := find_crlfcrlf hcr hne t
  rw [headerPart, List.append_assoc, crlfcrlf,
    Search.find_append_of_notMem r.cr_notMem_requestLine]
  rw [crlfcrlf] at hblock
  rw [hblock, Option.map_some, List.length_append, Nat.add_comm]

theorem find_serialise (rest : Bytes) :
    Search.find crlfcrlf (r.serialise ++ rest) = some r.headerPart.length
      ∧ (r.serialise ++ rest).take r.headerPart.length = r.headerPart := by
  have hsplit : r.serialise ++ rest = r.headerPart ++ (crlfcrlf ++ (r.body ++ rest)) := by
    rw [serialise_eq, List.append_assoc, List.append_assoc]
  exact ⟨by rw [hsplit, r.find_headerPart_append], by rw [hsplit, List.take_left]⟩

/-- Without header lines the request line has no terminator. -/
theorem find_headerPart_of_nil (hnil : r.headers = []) : Search.find crlf r.headerPart = none := by
  rw [headerPart, hnil]
  simp only [List.map_nil, List.flatten_nil, List.append_nil]
  exact Search.find_eq_none_of_notMem r.cr_notMem_requestLine

/-- **Where the request line ends**, and what the header lines behind it add to a request:
all headers but the last. -/
theorem find_headerPart {headers : List (Bytes × Bytes)} {last : Bytes × Bytes}
    (hcons : r.headers = headers ++ [last]) :
    Search.find crlf r.headerPart = some r.requestLine.length
      ∧ r.headerPart.take r.requestLine.length = r.requestLine
      ∧ ∀ req, parseHeaderLines (r.headerPart.drop (r.requestLine.length + 2)) req
        = (headers.map headerLine).foldl parseHeaderLine req := by
  have hcr : ∀ l ∈ headers.map headerLine, 0x0D ∉ l := by
    intro l hl
    obtain ⟨h, hm, rfl⟩ := List.mem_map.mp hl
    exact r.cr_notMem_headerLine (by rw [hcons]; exact List.mem_append_left _ hm)
  have hlast : 0x0D ∉ headerLine last := r.cr_notMem_headerLine (by rw [hcons]; simp)
  have hpart : r.headerPart = r.requestLine
      ++ (crlf ++ (((headers.map headerLine).map fun l => l ++ crlf).flatten
        ++ headerLine last)) := by
    rw [headerPart, hcons, List.map_append, List.map_append, List.flatten_append,
      ← List.append_assoc crlf, crlf_append_flatten, List.append_assoc]
    simp
  rw [hpart]
  refine ⟨Search.find_append_pattern r.cr_notMem_requestLine _, List.take_left, fun req => ?_⟩
  rw [← List.drop_drop, List.drop_left]
  exact parseHeaderLines_append hcr hlast req

/-- **The headers that are parsed are all but the last**, and there is at least one
line to be dropped. -/
theorem headers_of_parseHttpRequest {rest : Bytes} {ctx ctx' : ConnectionHttpContext}
    {req : HttpRequest}
    (h : parseHttpRequest { ctx with buffer := r.serialise ++ rest } {} = .ok (true, ctx', req)) :
    ∃ headers last, r.headers = headers ++ [last] ∧ req.headers = headerMap headers := by
  obtain ⟨headerEnd, length, head, path, version, hfind, hhead, -, rfl, -⟩ :=
    parseHttpRequest_true h
  obtain ⟨hend, htake⟩ := r.find_serialise rest
  simp only [hend, Option.some.injEq] at hfind
  subst hfind
  simp only [htake] at hhead
  obtain ⟨lineEnd, method, path', version', hline, rfl⟩ := parseHeaderPart_some hhead
  rw [completeRequest_headers]
  rcases List.eq_nil_or_concat r.headers with hnil | ⟨headers, last, hcons⟩
  · rw [r.find_headerPart_of_nil hnil] at hline
    cases hline
  · rw [List.concat_eq_append] at hcons
    refine ⟨headers, last, hcons, ?_⟩
    obtain ⟨hline', -, hlines⟩ := r.find_headerPart hcons
    have hmem : ∀ h ∈ headers, h ∈ r.headers := fun h hm => by
      rw [hcons]
      exact List.mem_append_left _ hm
    rw [hline', Option.some.injEq] at hline
    rw [← hline, hlines]
    exact foldl_parseHeaderLine (fun h hm => (r.key_noSeparator h (hmem h hm)).1)
      (fun h hm => r.value_noBlank h (hmem h hm)) rfl

/-- **The request is parsed back from its text**, whatever follows it. -/
def ParsedBack (r : RequestText) (rest : Bytes) (ctx : ConnectionHttpContext) : Prop :=
  ∃ ctx' req, parseHttpRequest { ctx with buffer := r.serialise ++ rest } {} = .ok (true, ctx', req)
    ∧ req.method = r.method ∧ req.path = r.path ∧ req.version = r.version
    ∧ req.headers = headerMap r.headers ∧ req.body = r.body ∧ ctx'.buffer = rest

/-- **No request is parsed back from its text.** -/
theorem parseHttpRequest_not_inverse (r : RequestText) (rest : Bytes)
    (ctx : ConnectionHttpContext) : ¬ r.ParsedBack rest ctx := by
  rintro ⟨ctx', req, hparse, -, -, -, hheaders, -, -⟩
  obtain ⟨headers, last, hsplit, hreq⟩ := r.headers_of_parseHttpRequest hparse
  have hnodup := r.keys_nodup
  rw [hsplit, List.map_append, List.nodup_append] at hnodup
  have hnew : last.1 ∉ headers.map Prod.fst := fun hmem =>
    hnodup.2.2 _ hmem _ (List.mem_singleton.mpr rfl) rfl
  rw [hreq, hsplit, headerMap_append] at hheaders
  have hlookup := congrArg (Finmap.lookup last.1) hheaders
  rw [lookup_headerMap_of_notMem hnew, Finmap.lookup_insert] at hlookup
  cases hlookup

/-- A request with one header. -/
def getHost : RequestText where
  method := lit "GET"
  path := lit "/"
  version := lit "HTTP/1.1"
  headers := [(lit "Host", lit "x")]
  body := []
  method_isToken := by unfold IsToken; decide +kernel
  path_isToken := by unfold IsToken; decide +kernel
  version_isToken := by unfold IsToken; decide +kernel
  path_noQuery := by decide +kernel
  keys_nodup := by decide
  key_ne_nil := by decide
  key_noSeparator := by decide +kernel
  value_noBreak := by decide +kernel
  value_noBlank := by decide +kernel
  body_announced := fun h => absurd rfl h
  body_unannounced := fun _ => by decide

/-- The request with the one header `Host: x` is parsed to one without headers. -/
theorem getHost_not_parsedBack :
    getHost.serialise = lit "GET / HTTP/1.1\r\nHost: x\r\n\r\n"
    ∧ parseHttpRequest { buffer := getHost.serialise ++ [] } {}
      = .ok (true, {}, { method := lit "GET", path := lit "/", version := lit "HTTP/1.1" })
    ∧ ¬ getHost.ParsedBack [] {} := by
  have hparse : parseHttpRequest { buffer := getHost.serialise ++ [] } {}
      = .ok (true, {}, { method := lit "GET", path := lit "/", version := lit "HTTP/1.1" }) := by
    decide +kernel
  refine ⟨by decide, hparse, ?_⟩
  rintro ⟨ctx', req, hreq, -, -, -, hheaders, -, -⟩
  have hreq' := hreq.symm.trans hparse
  cases hreq'
  exact absurd hheaders (by decide)

end RequestText
