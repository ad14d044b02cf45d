import HttpServer.HeaderBlock

/-!
# The other HTTP parser

`HttpParser::Parse` of `application/http/http_parser.cpp` parses requests a second time, from the
whole data. Where `ParseHttpRequest` works on the header block without its last terminator,
`Parse` looks for the terminators in the data, so it reads the last header line, which the other
one drops. It does not limit the body, and it returns where the body begins, as an `int`, where
the other one takes the body off as well.

`parsers_agree_iff` says on which buffers the two agree: those without a body whose last header
line adds nothing.
-/

/-! ## The source -/

namespace HttpParser

/-- The conversion of a `size_t` to `int`. -/
def toInt (n : ℕ) : ℤ := (n : ℤ).bmod (2 ^ 32)

/-- The loop over the header lines. -/
def parseHeaders (data : Bytes) (headerEnd pos : ℕ) (request : HttpRequest) : HttpRequest :=
  if pos < headerEnd then
    match Search.find crlf (data.drop pos) with
    | none => request
    | some lineEnd2 =>
      parseHeaders data headerEnd (pos + lineEnd2 + 2)
        (parseHeaderLine request ((data.drop pos).take lineEnd2))
  else request
termination_by headerEnd - pos

/-- The body, if all of it is there. The sum is one of 64 bits. -/
def parseBody (data : Bytes) (bodyStart : ℕ) (request : HttpRequest) :
    Except StdException HttpRequest :=
  if bodyStart < data.length then
    let contentLengthStr := request.getHeader (lit "Content-Length")
    if contentLengthStr.isEmpty then .ok request
    else
      match stoul contentLengthStr with
      | .error e => .error e
      | .ok contentLength =>
        if (bodyStart + contentLength) % 2 ^ 64 ≤ data.length then
          let request := { request with body := (data.drop bodyStart).take contentLength }
          if Search.contains (lit "application/x-www-form-urlencoded")
            (request.getHeader (lit "Content-Type"))
          then .ok request.parseFormData else .ok request
        else .ok request
  else .ok request

/-- `Parse`: the result, and the request behind the reference. -/
def parse (data : Bytes) (request : HttpRequest) : Except StdException (ℤ × HttpRequest) :=
  match Search.find crlf data with
  | none => .ok (0, request)
  | some lineEnd =>
    match parseRequestLine (data.take lineEnd) with
    | none => .ok (-1, request)
    | some (method, path, version) =>
      let request := { request with method, path, version }
      match Search.find crlfcrlf data with
      | none => .ok (0, request)
      | some headerEnd =>
        let request := parseHeaders data headerEnd (lineEnd + 2) request
        match parseBody data (headerEnd + 4) request with
        | .error e => .error e
        | .ok request => .ok (toInt (headerEnd + 4), request)

end HttpParser

/-! ## Header blocks, line by line -/

/-- A line with its terminator is not empty. -/
theorem length_drop_line_lt {s : Bytes} {lineEnd : ℕ} (h : Search.find crlf s = some lineEnd) :
    (s.drop (lineEnd + 2)).length < s.length := by
  have hle := Search.add_length_le_of_find h (by decide)
  have htwo : crlf.length = 2 := rfl
  rw [List.length_drop]
  omega

/-- A text cut at its line terminators. -/
def splitLines (s : Bytes) : List Bytes :=
  match h : Search.find crlf s with
  | none => [s]
  | some lineEnd =>
    have := length_drop_line_lt h
    s.take lineEnd :: splitLines (s.drop (lineEnd + 2))
termination_by s.length

theorem splitLines_of_none {s : Bytes} (h : Search.find crlf s = none) : splitLines s = [s] := by
  rw [splitLines]
  split
  · rfl
  · rename_i hsome
    rw [h] at hsome
    cases hsome

theorem splitLines_of_some {s : Bytes} {lineEnd : ℕ} (h : Search.find crlf s = some lineEnd) :
    splitLines s = s.take lineEnd :: splitLines (s.drop (lineEnd + 2)) := by
  rw [splitLines]
  split
  · rename_i hnone
    rw [h] at hnone
    cases hnone
  · rename_i hsome
    rw [h] at hsome
    cases hsome
    rfl

theorem splitLines_ne_nil (s : Bytes) : splitLines s ≠ [] := by
  cases h : Search.find crlf s with
  | none =>
    rw [splitLines_of_none h]
    exact List.cons_ne_nil _ _
  | some lineEnd =>
    rw [splitLines_of_some h]
    exact List.cons_ne_nil _ _

/-- A line and more lines, joined by line terminators. -/
def joinLines (line : Bytes) (lines : List Bytes) : Bytes :=
  line ++ (lines.map fun l => crlf ++ l).flatten

/-- A line has no terminator in it. -/
theorem find_crlf_of_mem_splitLines {s line : Bytes} (h : line ∈ splitLines s) :
    Search.find crlf line = none := by
  induction hn : s.length using Nat.strongRecOn generalizing s with
  | _ n ih =>
    cases hfind : Search.find crlf s with
    | none =>
      rw [splitLines_of_none hfind, List.mem_singleton] at h
      rw [h, hfind]
    | some lineEnd =>
      rw [splitLines_of_some hfind, List.mem_cons] at h
      rcases h with rfl | h
      · exact Search.find_take_of_find hfind (by decide)
      · exact ih _ (hn ▸ length_drop_line_lt hfind) h rfl

/-- **Lines that are joined are split again.** -/
theorem splitLines_joinLines {line : Bytes} {lines : List Bytes}
    (h : ∀ l ∈ line :: lines, Search.find crlf l = none) :
    splitLines (joinLines line lines) = line :: lines := by
  unfold joinLines
  have hline := h line List.mem_cons_self
  induction lines generalizing line with
  | nil => rw [List.map_nil, List.flatten_nil, List.append_nil, splitLines_of_none hline]
  | cons l ls ih =>
    have hl : Search.find crlf l = none := h l (List.mem_cons_of_mem _ List.mem_cons_self)
    have hrest := ih (fun x hx => h x (List.mem_cons_of_mem _ hx)) hl
    have hfind : ∀ t, Search.find crlf (line ++ (crlf ++ t)) = some line.length :=
      Search.find_append_self (c := 0x0D) (p := [0x0A]) (by decide) hline
    rw [List.map_cons, List.flatten_cons, List.append_assoc, splitLines_of_some (hfind _),
      List.take_left, ← List.drop_drop, List.drop_left]
    exact congrArg (line :: ·) hrest

/-- Lines that are split are joined again. -/
theorem joinLines_of_splitLines {s line : Bytes} {lines : List Bytes}
    (h : splitLines s = line :: lines) : joinLines line lines = s := by
  induction hn : s.length using Nat.strongRecOn generalizing s line lines with
  | _ n ih =>
    cases hfind : Search.find crlf s with
    | none =>
      rw [splitLines_of_none hfind] at h
      cases h
      exact List.append_nil _
    | some lineEnd =>
      rw [splitLines_of_some hfind] at h
      obtain ⟨rfl, hlines⟩ := List.cons.inj h
      cases lines with
      | nil => exact absurd hlines (splitLines_ne_nil _)
      | cons l ls =>
        have hrest := ih _ (hn ▸ length_drop_line_lt hfind) hlines rfl
        obtain ⟨t, ht⟩ := Search.prefix_drop_of_find hfind
        have hdrop : s.drop (lineEnd + 2) = t := by
          rw [← List.drop_drop, ← ht]
          rfl
        rw [hdrop] at hrest
        calc joinLines (s.take lineEnd) (l :: ls)
            = s.take lineEnd ++ (crlf ++ joinLines l ls) := by simp [joinLines]
          _ = s.take lineEnd ++ s.drop lineEnd := by rw [hrest, ht]
          _ = s := List.take_append_drop _ _

/-- **The loop of `ParseHttpRequest` goes over all lines but the last.** -/
theorem parseHeaderLines_eq (rest : Bytes) (req : HttpRequest) :
    parseHeaderLines rest req = (splitLines rest).dropLast.foldl parseHeaderLine req := by
  induction hn : rest.length using Nat.strongRecOn generalizing rest req with
  | _ n ih =>
    rw [parseHeaderLines]
    split
    · rename_i hnil
      rw [hnil, splitLines_of_none rfl]
      rfl
    · cases hline : Search.find crlf rest with
      | none =>
        rw [splitLines_of_none hline]
        rfl
      | some lineEnd =>
        have hrec := ih (rest.drop (lineEnd + 2)).length (hn ▸ length_drop_line_lt hline)
          (rest.drop (lineEnd + 2)) (parseHeaderLine req (rest.take lineEnd)) rfl
        rw [splitLines_of_some hline, List.dropLast_cons_of_ne_nil (splitLines_ne_nil _),
          List.foldl_cons]
        exact hrec

/-- **The loop of `Parse` goes over all of them.** -/
theorem HttpParser.parseHeaders_eq (part t : Bytes) (pos : ℕ) (req : HttpRequest) :
    parseHeaders (part ++ (crlfcrlf ++ t)) part.length pos req
      = (splitLines (part.drop pos)).foldl parseHeaderLine req := by
  induction hn : part.length - pos using Nat.strongRecOn generalizing pos req with
  | _ n ih =>
    rw [parseHeaders]
    by_cases hpos : pos < part.length
    · have hdrop : (part ++ (crlfcrlf ++ t)).drop pos = part.drop pos ++ (crlfcrlf ++ t) :=
        List.drop_append_of_le_length hpos.le
      have hlength : (part.drop pos).length = part.length - pos := List.length_drop
      rw [if_pos hpos, hdrop]
      cases hline : Search.find crlf (part.drop pos) with
      | some lineEnd =>
        have hle := Search.add_length_le_of_find hline (by decide)
        have htwo : crlf.length = 2 := rfl
        have htake : (part.drop pos ++ (crlfcrlf ++ t)).take lineEnd
            = (part.drop pos).take lineEnd := List.take_append_of_le_length (by omega)
        rw [Search.find_append_of_some hline _ (by decide), splitLines_of_some hline,
          List.foldl_cons, List.drop_drop]
        dsimp only
        rw [htake]
        exact ih (part.length - (pos + lineEnd + 2)) (by omega) (pos + lineEnd + 2) _ rfl
      | none =>
        -- the last line, which the terminator of the block ends
        have hself : Search.find crlf (part.drop pos ++ (crlfcrlf ++ t))
            = some (part.drop pos).length :=
          Search.find_append_self (c := 0x0D) (p := [0x0A]) (by decide) hline (crlf ++ t)
        have hend : ¬ pos + (part.drop pos).length + 2 < part.length := by omega
        rw [hself, splitLines_of_none hline]
        dsimp only
        rw [parseHeaders, if_neg hend, List.take_left]
        rfl
    · rw [if_neg hpos, List.drop_eq_nil_of_le (Nat.le_of_not_lt hpos), splitLines_of_none rfl]
      rfl

/-- **The field of a header line**: what stands in front of its first colon, and what stands behind
that and blanks. -/
def headerField (line : Bytes) : Option (Bytes × Bytes) :=
  (Search.find (lit ":") line).map fun colonPos =>
    (line.take colonPos, (line.drop (colonPos + 1)).dropWhile isBlank)

/-- The headers of header lines, where a later line takes precedence. -/
def headersOf (lines : List Bytes) : StringMap := headerMap (lines.filterMap headerField)

/-- What is found in a header map was written there. -/
theorem mem_of_lookup_headerMap {headers : List (Bytes × Bytes)} {key value : Bytes}
    (h : (headerMap headers).lookup key = some value) : (key, value) ∈ headers := by
  induction headers using List.reverseRecOn with
  | nil => cases h
  | append_singleton headers last ih =>
    rw [headerMap_append] at h
    by_cases hkey : key = last.1
    · subst hkey
      rw [Finmap.lookup_insert] at h
      cases h
      exact List.mem_append_right _ List.mem_cons_self
    · rw [Finmap.lookup_insert_of_ne _ hkey] at h
      exact List.mem_append_left _ (ih h)

theorem headersOf_append_singleton (lines : List Bytes) (last : Bytes) :
    headersOf (lines ++ [last]) = match headerField last with
      | none => headersOf lines
      | some field => (headersOf lines).insert field.1 field.2 := by
  unfold headersOf
  rw [List.filterMap_append]
  cases hfield : headerField last with
  | none => rw [List.filterMap_cons_none hfield, List.filterMap_nil, List.append_nil]
  | some field =>
    rw [List.filterMap_cons_some hfield, List.filterMap_nil]
    exact headerMap_append _ _

theorem parseHeaderLine_eq (req : HttpRequest) (line : Bytes) :
    parseHeaderLine req line = match headerField line with
      | none => req
      | some field => req.addHeader field.1 field.2 := by
  unfold parseHeaderLine headerField
  cases Search.find (lit ":") line with
  | none => rfl
  | some colonPos => rfl

/-- **Parsing header lines makes their headers**, and nothing else. -/
theorem foldl_parseHeaderLine_eq (lines : List Bytes) {req : HttpRequest}
    (hreq : req.headers = ∅) :
    lines.foldl parseHeaderLine req = { req with headers := headersOf lines } := by
  induction lines using List.reverseRecOn with
  | nil =>
    show req = { req with headers := ∅ }
    rw [← hreq]
  | append_singleton lines last ih =>
    rw [List.foldl_append, List.foldl_cons, List.foldl_nil, ih, parseHeaderLine_eq,
      headersOf_append_singleton]
    cases headerField last with
    | none => rfl
    | some field => rfl

/-- The header lines at the front of a buffer, the ones between the request line and the empty
line. -/
def headerLines (s : Bytes) : List Bytes :=
  match Search.find crlfcrlf s with
  | none => []
  | some headerEnd => (splitLines (s.take headerEnd)).tail

/-- The target that the request line at the front of a buffer names. -/
def requestTarget (s : Bytes) : Option Bytes :=
  (Search.find crlf s).bind fun lineEnd =>
    (parseRequestLine (s.take lineEnd)).map fun p => p.2.1

/-- **The two parsers read the same in a buffer**: the header block ends where an `int` can say so,
the header lines but the last announce no body, and the last one has no field, or one that the
lines in front of it have as well, with the same value. -/
structure ParsedAlike (s : Bytes) : Prop where
  fits : ∀ headerEnd, Search.find crlfcrlf s = some headerEnd → headerEnd + 4 < 2 ^ 31
  noBody : ∀ value ∈ (headersOf (headerLines s).dropLast).lookup (lit "Content-Length"),
    value = [] ∨ stoul value = .ok 0
  lastLine : ∀ line ∈ (headerLines s).getLast?, ∀ field ∈ headerField line,
    (headersOf (headerLines s).dropLast).lookup field.1 = some field.2

/-! ## What the two parsers read -/

/-- A buffer around its first empty line. -/
theorem split_of_find_crlfcrlf {s : Bytes} {headerEnd : ℕ}
    (h : Search.find crlfcrlf s = some headerEnd) :
    s = s.take headerEnd ++ (crlfcrlf ++ s.drop (headerEnd + 4)) := by
  obtain ⟨t, ht⟩ := Search.prefix_drop_of_find h
  have hdrop : s.drop (headerEnd + 4) = t := by
    rw [← List.drop_drop, ← ht]
    rfl
  rw [hdrop, ht, List.take_append_drop]

/-- **A buffer from which a request is parsed**: its header block, line by line, and the request
that comes of it. -/
theorem parseHttpRequest_lines {ctx ctx' : ConnectionHttpContext} {req : HttpRequest}
    (h : parseHttpRequest ctx {} = .ok (true, ctx', req)) :
    ∃ (headerEnd lineEnd length : ℕ) (method path version : Bytes),
      Search.find crlfcrlf ctx.buffer = some headerEnd
      ∧ Search.find crlf (ctx.buffer.take headerEnd) = some lineEnd
      ∧ parseRequestLine ((ctx.buffer.take headerEnd).take lineEnd) = some (method, path, version)
      ∧ headerLines ctx.buffer = splitLines ((ctx.buffer.take headerEnd).drop (lineEnd + 2))
      ∧ headerEnd + 4 + length ≤ ctx.buffer.length
      ∧ ctx'.buffer = ctx.buffer.drop (headerEnd + 4 + length)
      ∧ let head : HttpRequest :=
          { method, path, version, headers := headersOf (headerLines ctx.buffer).dropLast }
        contentLength head = .ok length
          ∧ req = completeRequest head path length
            ((ctx.buffer.drop (headerEnd + 4)).take length) := by
  cases hnext : nextRequest ctx.buffer with
  | more =>
    obtain ⟨req', hp⟩ := parseHttpRequest_of_more ctx hnext
    rw [hp] at h
    cases h
  | fail e =>
    rw [parseHttpRequest_of_fail ctx hnext] at h
    cases h
  | item item rest =>
    rw [parseHttpRequest_of_item ctx hnext] at h
    cases h
    obtain ⟨headerEnd, head, length, hread, hlength, -, hfits, hreq, -, hrest⟩ :=
      nextRequest_eq_item_iff.mp hnext
    obtain ⟨hfind, lineEnd, method, path, version, hline, hparse, hhead⟩ :=
      readHead_eq_some_iff.mp hread
    have hlines : headerLines ctx.buffer
        = splitLines ((ctx.buffer.take headerEnd).drop (lineEnd + 2)) := by
      rw [headerLines, hfind]
      dsimp only
      rw [splitLines_of_some hline, List.tail_cons]
    rw [parseHeaderLines_eq, foldl_parseHeaderLine_eq _ rfl, ← hlines] at hhead
    subst hhead
    exact ⟨headerEnd, lineEnd, length, method, path, version, hfind, hline, hparse, hlines, hfits,
      hrest, hlength, hreq⟩

/-- Form data of an empty body add nothing. -/
theorem HttpRequest.parseFormData_of_nil {req : HttpRequest} (hbody : req.body = [])
    (hform : req.formData = ∅) : req.parseFormData = req := by
  obtain ⟨method, path, version, headers, body, formData⟩ := req
  dsimp only at hbody hform
  subst hbody hform
  unfold parseFormData
  split <;> rfl

namespace HttpParser

/-- An `int` is the sum of a length and another one only if that is 0 and the length is an `int`. -/
theorem toInt_eq_add_iff (n k : ℕ) : toInt n = ((n + k : ℕ) : ℤ) ↔ k = 0 ∧ n < 2 ^ 31 := by
  unfold toInt
  rw [Int.bmod_def]
  split <;> omega

/-- **What `Parse` makes of a buffer** with a header block: all its lines count. -/
theorem parse_eq {s method path version : Bytes} {headerEnd lineEnd : ℕ}
    (hfind : Search.find crlfcrlf s = some headerEnd)
    (hline : Search.find crlf (s.take headerEnd) = some lineEnd)
    (hparse : parseRequestLine ((s.take headerEnd).take lineEnd) = some (method, path, version))
    (hlines : headerLines s = splitLines ((s.take headerEnd).drop (lineEnd + 2))) :
    parse s {} = match parseBody s (headerEnd + 4)
        { method, path, version, headers := headersOf (headerLines s) } with
      | .error e => .error e
      | .ok request => .ok (toInt (headerEnd + 4), request) := by
  have hend := Search.add_length_le_of_find hfind (by decide)
  obtain ⟨hline', htake⟩ := Search.find_of_find_take hline (by decide)
  have hheaders : ∀ req, parseHeaders s headerEnd (lineEnd + 2) req
      = (headerLines s).foldl parseHeaderLine req := by
    intro req
    have hloop := parseHeaders_eq (s.take headerEnd) (s.drop (headerEnd + 4)) (lineEnd + 2) req
    rw [← split_of_find_crlfcrlf hfind, List.length_take, Nat.min_eq_left (by omega)] at hloop
    rw [hloop, hlines]
  rw [htake] at hparse
  unfold parse
  rw [hline']
  dsimp only
  rw [hparse, hfind]
  dsimp only
  rw [hheaders, foldl_parseHeaderLine_eq _ rfl]

/-- The body leaves the headers alone. -/
theorem headers_parseBody {data : Bytes} {bodyStart : ℕ} {request request' : HttpRequest}
    (h : parseBody data bodyStart request = .ok request') : request'.headers = request.headers := by
  unfold parseBody at h
  split at h
  · dsimp only at h
    split at h
    · cases h
      rfl
    · split at h
      · cases h
      · split at h
        · split at h
          · cases h
            exact HttpRequest.parseFormData_headers _
          · cases h
            rfl
        · cases h
          rfl
  · cases h
    rfl

/-- Where no body is announced, none is read. -/
theorem parseBody_of_noBody (data : Bytes) (bodyStart : ℕ) {request : HttpRequest}
    (hbody : request.body = []) (hform : request.formData = ∅)
    (hlength : contentLength request = .ok 0) : parseBody data bodyStart request = .ok request := by
  unfold parseBody contentLength at *
  split
  · dsimp only at hlength ⊢
    split
    · rfl
    · rename_i hvalue
      rw [if_neg hvalue] at hlength
      rw [hlength]
      dsimp only
      split
      · rw [List.take_zero]
        have hself : { request with body := [] } = request := by rw [← hbody]
        rw [hself, HttpRequest.parseFormData_of_nil hbody hform]
        split <;> rfl
      · rfl
  · rfl

end HttpParser

/-- Where no body is announced, the request is complete as it is. -/
theorem completeRequest_of_noBody {req : HttpRequest} {path : Bytes} (hquery : 0x3F ∉ path)
    (hbody : req.body = []) (hform : req.formData = ∅) (body : Bytes) :
    completeRequest req path 0 body = req := by
  unfold completeRequest
  have hfind : Search.find (lit "?") path = none := Search.find_eq_none_of_notMem hquery
  rw [hfind]
  dsimp only
  rw [if_neg (Nat.lt_irrefl 0), HttpRequest.parseFormData_of_nil hbody hform]
  split <;> rfl

/-! ## Where they agree -/

theorem insert_eq_self_iff (m : StringMap) (key value : Bytes) :
    m.insert key value = m ↔ m.lookup key = some value := by
  constructor
  · intro h
    rw [← h]
    exact Finmap.lookup_insert m
  · intro h
    refine Finmap.ext_lookup fun key' => ?_
    by_cases hkey : key' = key
    · rw [hkey, Finmap.lookup_insert, h]
    · exact Finmap.lookup_insert_of_ne m hkey

/-- **When the last line adds nothing.** -/
theorem headersOf_eq_dropLast_iff (lines : List Bytes) :
    headersOf lines = headersOf lines.dropLast
      ↔ ∀ line ∈ lines.getLast?, ∀ field ∈ headerField line,
        (headersOf lines.dropLast).lookup field.1 = some field.2 := by
  rcases List.eq_nil_or_concat lines with rfl | ⟨init, last, rfl⟩
  · exact iff_of_true rfl fun line hline => nomatch hline
  · rw [List.concat_eq_append, List.dropLast_concat, List.getLast?_concat,
      headersOf_append_singleton]
    simp only [Option.mem_def, Option.some.injEq, forall_eq']
    cases headerField last with
    | none => exact iff_of_true rfl fun field hfield => nomatch hfield
    | some field =>
      simp only [Option.some.injEq, forall_eq']
      exact insert_eq_self_iff _ _ _

/-- When headers announce no body. -/
theorem contentLength_eq_zero_iff (req : HttpRequest) :
    contentLength req = .ok 0
      ↔ ∀ value ∈ req.headers.lookup (lit "Content-Length"), value = [] ∨ stoul value = .ok 0 := by
  unfold contentLength HttpRequest.getHeader
  cases req.headers.lookup (lit "Content-Length") with
  | none => exact iff_of_true rfl fun value hvalue => nomatch hvalue
  | some value =>
    simp only [Option.getD_some, Option.mem_def, Option.some.injEq, forall_eq']
    cases value with
    | nil => exact iff_of_true rfl (Or.inl rfl)
    | cons c value =>
      show stoul (c :: value) = .ok 0 ↔ _
      exact ⟨Or.inr, fun h => h.resolve_left (List.cons_ne_nil _ _)⟩

/-- **Exactly when the two parsers agree.** From a buffer whose request target has no `?`,
`ParseHttpRequest` parses a request. `Parse` returns the number of bytes that it has taken off
and makes the same request exactly if the header block ends where an `int` can say so, no body is
announced, and the last header line adds nothing. -/
theorem parsers_agree_iff {ctx ctx' : ConnectionHttpContext} {req : HttpRequest}
    (hquery : ∀ target ∈ requestTarget ctx.buffer, 0x3F ∉ target)
    (hreq : parseHttpRequest ctx {} = .ok (true, ctx', req)) :
    HttpParser.parse ctx.buffer {}
        = .ok (((ctx.buffer.length - ctx'.buffer.length : ℕ) : ℤ), req)
      ↔ ParsedAlike ctx.buffer := by
  obtain ⟨headerEnd, lineEnd, length, method, path, version, hfind, hline, hparse, hlines, hfits,
    hrest, hlength, rfl⟩ := parseHttpRequest_lines hreq
  have hpath : 0x3F ∉ path := by
    obtain ⟨hline', htake⟩ := Search.find_of_find_take hline (by decide)
    refine hquery path ?_
    rw [requestTarget, hline', Option.bind_some, ← htake, hparse]
    rfl
  have hcount : ctx.buffer.length - ctx'.buffer.length = headerEnd + 4 + length := by
    rw [hrest, List.length_drop]
    omega
  rw [hcount, HttpParser.parse_eq hfind hline hparse hlines]
  constructor
  · intro h
    cases hbody : HttpParser.parseBody ctx.buffer (headerEnd + 4)
        { method, path, version, headers := headersOf (headerLines ctx.buffer) } with
    | error e =>
      rw [hbody] at h
      cases h
    | ok request =>
      rw [hbody] at h
      obtain ⟨hint, rfl⟩ := Prod.mk.inj (Except.ok.inj h)
      have hheaders := HttpParser.headers_parseBody hbody
      rw [completeRequest_headers] at hheaders
      obtain ⟨rfl, hsmall⟩ := (HttpParser.toInt_eq_add_iff _ _).mp hint
      refine ⟨fun headerEnd' hfind' => ?_, ?_, ?_⟩
      · rw [hfind, Option.some.injEq] at hfind'
        rw [← hfind']
        exact hsmall
      · exact (contentLength_eq_zero_iff _).mp hlength
      · exact (headersOf_eq_dropLast_iff _).mp hheaders.symm
  · intro h
    have hheaders := (headersOf_eq_dropLast_iff _).mpr h.lastLine
    have hzero : contentLength { method, path, version
                                 headers := headersOf (headerLines ctx.buffer).dropLast } = .ok 0 :=
      (contentLength_eq_zero_iff _).mpr h.noBody
    obtain rfl : length = 0 := Except.ok.inj (hlength.symm.trans hzero)
    rw [hheaders, HttpParser.parseBody_of_noBody _ _ rfl rfl hzero,
      completeRequest_of_noBody hpath rfl rfl]
    dsimp only
    rw [(HttpParser.toInt_eq_add_iff _ _).mpr ⟨rfl, h.fits headerEnd hfind⟩]

/-- A request whose last header line has no field. -/
def blankLast : Bytes := lit "GET / HTTP/1.1\r\nHost: x\r\n;\r\n\r\n"

/-- What both parsers make of it. -/
def blankLastRequest : HttpRequest where
  method := lit "GET"
  path := lit "/"
  version := lit "HTTP/1.1"
  headers := headersOf [lit "Host: x"]

/-- The criterion on that request. -/
theorem parsers_agree_iff_blank :
    HttpParser.parse blankLast {} = .ok (30, blankLastRequest) ↔ ParsedAlike blankLast := by
  have htarget : requestTarget blankLast = some (lit "/") := by decide +kernel
  have hparse : parseHttpRequest { buffer := blankLast } {} = .ok (true, {}, blankLastRequest) := by
    decide +kernel
  refine @parsers_agree_iff { buffer := blankLast } _ _ (fun target hmem => ?_) hparse
  rw [htarget] at hmem
  cases hmem
  decide

/-- A request with one header line. -/
def hostLast : Bytes := lit "GET / HTTP/1.1\r\nHost: x\r\n\r\n"

/-- **The parsers disagree** on it: the one drops the line and takes 27 bytes off, the other one
does not make the same request of them. -/
theorem parsers_disagree :
    requestTarget hostLast = some (lit "/")
      ∧ parseHttpRequest { buffer := hostLast } {}
        = .ok (true, {}, { method := lit "GET", path := lit "/", version := lit "HTTP/1.1" })
      ∧ hostLast.length = 27
      ∧ HttpParser.parse hostLast {}
        ≠ .ok (27, { method := lit "GET", path := lit "/", version := lit "HTTP/1.1" }) := by
  refine ⟨?_, ?_, ?_, ?_⟩ <;> decide +kernel
