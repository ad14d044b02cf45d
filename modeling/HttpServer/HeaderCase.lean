import HttpServer.HttpParser

/-!
# Header names in another case

The names of header fields are to be compared without regard to case. `ParseHttpRequest` looks
three of them up in a map of strings, where `content-length` is not `Content-Length`, so that what
it makes of a request may change when a client spells its headers in another way. `headerCase_iff`
says for which requests it does not: those whose lengths are all zero, and whose `Connection`
fields say what the version of the protocol says without them. The type of the content is looked
up in the same way, but where there is no body it makes no difference.
-/

open HttpProtocolHandler (toLower)

/-! ## Changing the case of names -/

/-- The two lines are header fields that differ at most in the case of their names, or they are
the same line. -/
def SameField (line line' : Bytes) : Prop :=
  line' = line ∨ ∃ name name' value, 0x3A ∉ name ∧ toLower name' = toLower name
    ∧ line = name ++ 0x3A :: value ∧ line' = name' ++ 0x3A :: value

/-- The header block at the front of a buffer, or all of it while the block is not complete. -/
def headBlock (s : Bytes) : Bytes := s.take ((Search.find crlfcrlf s).getD s.length)

/-- **The second buffer is the first one with header names in another case**: the lines behind the
request line are other spellings of the fields, and all the rest is the same. -/
def CaseVariant (s s' : Bytes) : Prop :=
  ∃ requestLine lines lines', splitLines (headBlock s) = requestLine :: lines
    ∧ List.Forall₂ SameField lines lines'
    ∧ s' = joinLines requestLine lines' ++ s.drop (headBlock s).length

/-- What is to be the same: whether a request was parsed, how many bytes were taken off for it,
whether the connection is kept, and the request but for its headers. -/
structure ParseResult where
  parsed : Bool
  removed : ℕ
  isKeepAlive : Bool
  method : Bytes
  path : Bytes
  version : Bytes
  body : Bytes
  formData : StringMap
  deriving DecidableEq

/-- **What `ParseHttpRequest` makes of a buffer**, on a connection in this context. -/
def parseResult (ctx : ConnectionHttpContext) (s : Bytes) : Except StdException ParseResult :=
  match parseHttpRequest { ctx with buffer := s } {} with
  | .error e => .error e
  | .ok (parsed, ctx', req) => .ok {
      parsed, removed := s.length - ctx'.buffer.length, isKeepAlive := ctx'.isKeepAlive
      method := req.method, path := req.path, version := req.version
      body := req.body, formData := req.formData }

/-! ## The condition -/

/-- The fields that are parsed, those of all header lines but the last. -/
def headerFields (s : Bytes) : List (Bytes × Bytes) :=
  (headerLines s).dropLast.filterMap headerField

/-- The version of the protocol that the request line at the front of a buffer names. -/
def requestVersion (s : Bytes) : Option Bytes :=
  (Search.find crlf s).bind fun lineEnd =>
    (parseRequestLine (s.take lineEnd)).map fun p => p.2.2

/-- A field that says nothing that is not the case without it. -/
structure Redundant (version : Bytes) (f : Bytes × Bytes) : Prop where
  length : toLower f.1 = lit "content-length" → f.2 = [] ∨ stoul f.2 = .ok 0
  connection : toLower f.1 = lit "connection" →
    f.2 = [] ∨ (f.2 = lit "keep-alive" ↔ version = lit "HTTP/1.1")

/-- **Nothing depends on the spelling**: in whatever case their names are, the fields announce no
body, and keep the connection exactly as the version of the protocol does. -/
def CaseFree (s : Bytes) : Prop :=
  ∀ version ∈ requestVersion s, ∀ f ∈ headerFields s, Redundant version f

/-! ## Names in small letters -/

theorem toLower_append (s t : Bytes) : toLower (s ++ t) = toLower s ++ toLower t := List.map_append

theorem length_toLower (s : Bytes) : (toLower s).length = s.length := List.length_map _

/-- One octet in small letters. -/
def lowerOctet (c : UInt8) : UInt8 := if 0x41 ≤ c && c ≤ 0x5A then c + 0x20 else c

theorem toLower_eq_map (s : Bytes) : toLower s = s.map lowerOctet := rfl

/-- Only the octets of letters are turned into others, and only into letters. -/
theorem eq_of_lowerOctet {c x : UInt8} (hc : c < 0x41) (h : lowerOctet c = lowerOctet x) :
    c = x := by
  have hself : lowerOctet c = c := by
    rw [lowerOctet, if_neg]
    simp only [Bool.and_eq_true, decide_eq_true_eq, not_and, UInt8.not_le]
    exact fun hle => absurd hc (UInt8.not_lt.mpr hle)
  rw [hself] at h
  unfold lowerOctet at h
  split_ifs at h with hx
  · simp only [Bool.and_eq_true, decide_eq_true_eq, UInt8.le_iff_toNat_le] at hx
    rw [h, UInt8.lt_iff_toNat_lt, UInt8.toNat_add] at hc
    have hlow : 0x41 ≤ x.toNat := hx.1
    have hhigh : x.toNat ≤ 0x5A := hx.2
    have hsum : (x.toNat + 0x20) % 2 ^ 8 < 0x41 := hc
    omega
  · exact h

/-- Small letters are small letters. -/
theorem toLower_toLower (s : Bytes) : toLower (toLower s) = toLower s := by
  have hoctet : ∀ c : UInt8, lowerOctet (lowerOctet c) = lowerOctet c := by
    intro c
    obtain ⟨⟨c⟩⟩ := c
    revert c
    decide +kernel
  rw [toLower_eq_map, toLower_eq_map, List.map_map]
  exact List.map_congr_left fun c _ => hoctet c

/-- Where the first of some punctuation stands does not depend on the case of letters. -/
theorem find_of_toLower_eq {pat s s' : Bytes} (hpat : ∀ c ∈ pat, c < 0x41)
    (h : toLower s' = toLower s) : Search.find pat s' = Search.find pat s := by
  have hmap := Search.find_map (f := lowerOctet) fun c hc x => eq_of_lowerOctet (hpat c hc)
  rw [← hmap s', ← hmap s, ← toLower_eq_map s', ← toLower_eq_map s, h]

/-! ## Fields in another spelling -/

/-- The line of a field. -/
theorem headerField_append {name : Bytes} (hname : 0x3A ∉ name) (value : Bytes) :
    headerField (name ++ 0x3A :: value) = some (name, value.dropWhile isBlank) := by
  have hfind : Search.find (lit ":") (name ++ 0x3A :: value) = some name.length :=
    Search.find_append_pattern (p := []) hname value
  have hdrop : (name ++ 0x3A :: value).drop (name.length + 1) = value := by
    rw [← List.drop_drop, List.drop_left]
    rfl
  rw [headerField, hfind, Option.map_some, List.take_left, hdrop]

theorem colon_notMem_of_toLower_eq {name name' : Bytes} (h : toLower name' = toLower name)
    (hname : 0x3A ∉ name) : 0x3A ∉ name' := by
  refine Search.notMem_of_find_singleton ?_
  rw [find_of_toLower_eq (s := name) (by decide +kernel) h]
  exact Search.find_eq_none_of_notMem hname

theorem SameField.toLower_eq {line line' : Bytes} (h : SameField line line') :
    toLower line' = toLower line := by
  obtain hsame | ⟨name, name', value, -, hname, rfl, rfl⟩ := h
  · rw [hsame]
  · rw [toLower_append, toLower_append, hname]

/-- The two fields have the same value, and names that differ at most in case. -/
def SameSpelling (f f' : Bytes × Bytes) : Prop := f'.2 = f.2 ∧ toLower f'.1 = toLower f.1

/-- **The fields in another spelling.** -/
theorem forall₂_headerField {lines lines' : List Bytes} (h : List.Forall₂ SameField lines lines') :
    List.Forall₂ SameSpelling (lines.filterMap headerField) (lines'.filterMap headerField) := by
  induction h with
  | nil => exact List.Forall₂.nil
  | @cons line line' lines lines' hline _ ih =>
    obtain hsame | ⟨name, name', value, hcolon, hname, rfl, rfl⟩ := hline
    · rw [hsame]
      cases hf : headerField line with
      | none =>
        rw [List.filterMap_cons_none hf, List.filterMap_cons_none hf]
        exact ih
      | some f =>
        rw [List.filterMap_cons_some hf, List.filterMap_cons_some hf]
        exact List.Forall₂.cons ⟨rfl, rfl⟩ ih
    · have hcolon' := colon_notMem_of_toLower_eq hname hcolon
      rw [List.filterMap_cons_some (headerField_append hcolon value),
        List.filterMap_cons_some (headerField_append hcolon' value)]
      exact List.Forall₂.cons ⟨rfl, hname⟩ ih

/-- What is redundant in one spelling is redundant in the other one. -/
theorem redundant_of_forall₂ {version : Bytes} {fields fields' : List (Bytes × Bytes)}
    (h : List.Forall₂ SameSpelling fields fields') (hred : ∀ f ∈ fields, Redundant version f) :
    ∀ f ∈ fields', Redundant version f := by
  induction h with
  | nil => exact hred
  | @cons f f' fields fields' hf _ ih =>
    rw [List.forall_mem_cons] at hred ⊢
    refine ⟨⟨fun hname => ?_, fun hname => ?_⟩, ih hred.2⟩
    · rw [hf.1]
      exact hred.1.length (hf.2 ▸ hname)
    · rw [hf.1]
      exact hred.1.connection (hf.2 ▸ hname)

theorem toLower_joinLines {lines lines' : List Bytes} (h : List.Forall₂ SameField lines lines')
    (line : Bytes) : toLower (joinLines line lines') = toLower (joinLines line lines) := by
  unfold joinLines
  rw [toLower_append, toLower_append]
  congr 1
  induction h with
  | nil => rfl
  | cons hline _ ih =>
    rw [List.map_cons, List.map_cons, List.flatten_cons, List.flatten_cons, toLower_append,
      toLower_append, toLower_append, toLower_append, hline.toLower_eq, ih]

/-! ## A buffer in another spelling -/

theorem CaseVariant.toLower_eq {s s' : Bytes} (h : CaseVariant s s') : toLower s' = toLower s := by
  obtain ⟨line, lines, lines', hsplit, hlines, rfl⟩ := h
  have hself : s = joinLines line lines ++ s.drop (headBlock s).length := by
    rw [joinLines_of_splitLines hsplit, headBlock, List.length_take]
    rcases Nat.le_total ((Search.find crlfcrlf s).getD s.length) s.length with hle | hle
    · rw [Nat.min_eq_left hle, List.take_append_drop]
    · rw [Nat.min_eq_right hle, List.take_of_length_le hle, List.drop_length, List.append_nil]
  conv => rhs; rw [hself]
  rw [toLower_append, toLower_append, toLower_joinLines hlines]

theorem CaseVariant.length_eq {s s' : Bytes} (h : CaseVariant s s') : s'.length = s.length := by
  rw [← length_toLower s', h.toLower_eq, length_toLower]

/-- The header block ends in the same place. -/
theorem CaseVariant.find_eq {s s' : Bytes} (h : CaseVariant s s') :
    Search.find crlfcrlf s' = Search.find crlfcrlf s :=
  find_of_toLower_eq (by decide +kernel) h.toLower_eq

/-- Other spellings of the lines of a header block are its lines, in the other spelling. -/
theorem splitLines_respell {s line : Bytes} {headerEnd : ℕ} {lines lines' : List Bytes}
    (hfind : Search.find crlfcrlf s = some headerEnd)
    (hsplit : splitLines (s.take headerEnd) = line :: lines)
    (hlines : List.Forall₂ SameField lines lines') :
    splitLines ((joinLines line lines' ++ s.drop headerEnd).take headerEnd) = line :: lines' := by
  have hend := Search.add_length_le_of_find hfind (by decide)
  -- they are as long as the ones they stand for, and are lines as well
  have hlength : (joinLines line lines').length = headerEnd := by
    rw [← length_toLower, toLower_joinLines hlines, length_toLower,
      joinLines_of_splitLines hsplit, List.length_take]
    omega
  have hnone : ∀ l ∈ line :: lines, Search.find crlf l = none := fun l hl =>
    find_crlf_of_mem_splitLines (hsplit ▸ hl)
  have hnone' : ∀ l ∈ line :: lines', Search.find crlf l = none := by
    rw [List.forall_mem_cons] at hnone ⊢
    refine ⟨hnone.1, ?_⟩
    have hrest := hnone.2
    clear hsplit hlength hnone
    induction hlines with
    | nil => exact hrest
    | cons hline _ ih =>
      rw [List.forall_mem_cons] at hrest ⊢
      exact ⟨(find_of_toLower_eq (by decide +kernel) hline.toLower_eq).trans hrest.1, ih hrest.2⟩
  rw [List.take_append_of_le_length hlength.ge, List.take_of_length_le hlength.le,
    splitLines_joinLines hnone']

/-- The header block, where it is complete. -/
theorem headBlock_of_find {s : Bytes} {headerEnd : ℕ}
    (hfind : Search.find crlfcrlf s = some headerEnd) :
    headBlock s = s.take headerEnd ∧ (headBlock s).length = headerEnd := by
  have hend := Search.add_length_le_of_find hfind (by decide)
  rw [headBlock, hfind, Option.getD_some, List.length_take]
  exact ⟨rfl, by omega⟩

/-- A buffer with other spellings of its header lines. -/
theorem caseVariant_of_lines {s line : Bytes} {headerEnd : ℕ} {lines lines' : List Bytes}
    (hfind : Search.find crlfcrlf s = some headerEnd)
    (hsplit : splitLines (s.take headerEnd) = line :: lines)
    (hlines : List.Forall₂ SameField lines lines') :
    CaseVariant s (joinLines line lines' ++ s.drop headerEnd) := by
  obtain ⟨hblock, hlength⟩ := headBlock_of_find hfind
  exact ⟨line, lines, lines', by rw [hblock, hsplit], hlines, by rw [hlength]⟩

/-- **A complete header block in another spelling**, line by line. -/
theorem CaseVariant.lines {s s' : Bytes} (h : CaseVariant s s') {headerEnd : ℕ}
    (hfind : Search.find crlfcrlf s = some headerEnd) :
    ∃ requestLine lines lines', splitLines (s.take headerEnd) = requestLine :: lines
      ∧ splitLines (s'.take headerEnd) = requestLine :: lines'
      ∧ List.Forall₂ SameField lines lines' := by
  obtain ⟨hblock, hlength⟩ := headBlock_of_find hfind
  obtain ⟨line, lines, lines', hsplit, hlines, rfl⟩ := h
  rw [hblock] at hsplit
  rw [hlength]
  exact ⟨line, lines, lines', hsplit, splitLines_respell hfind hsplit hlines, hlines⟩

/-! ## What is parsed, line by line -/

/-- The result while no request is parsed. -/
def unparsed (ctx : ConnectionHttpContext) (req : HttpRequest) : ParseResult :=
  ⟨false, 0, ctx.isKeepAlive, req.method, req.path, req.version, req.body, req.formData⟩

theorem parseHeaderPart_lines {part requestLine : Bytes} {lines : List Bytes}
    (h : splitLines part = requestLine :: lines) :
    parseHeaderPart part {}
      = if lines = [] then .ok ({}, none)
        else
          match parseRequestLine requestLine with
          | none => .ok ({}, none)
          | some (method, path, version) =>
            let req : HttpRequest := { method, path, version, headers := headersOf lines.dropLast }
            match contentLength req with
            | .error e => .error e
            | .ok length =>
              if maxBodySize < length then .ok (req, none)
              else .ok (req, some (path, version, length)) := by
  unfold parseHeaderPart
  cases hfind : Search.find crlf part with
  | none =>
    rw [splitLines_of_none hfind] at h
    obtain ⟨-, rfl⟩ := List.cons.inj h
    rfl
  | some lineEnd =>
    rw [splitLines_of_some hfind] at h
    obtain ⟨rfl, rfl⟩ := List.cons.inj h
    rw [if_neg (splitLines_ne_nil _)]
    dsimp only
    cases parseRequestLine (part.take lineEnd) with
    | none => rfl
    | some tokens =>
      obtain ⟨method, path, version⟩ := tokens
      have hreq : parseHeaderLines (part.drop (lineEnd + 2)) { method, path, version }
          = { method, path, version
              headers := headersOf (splitLines (part.drop (lineEnd + 2))).dropLast } := by
        rw [parseHeaderLines_eq, foldl_parseHeaderLine_eq _ rfl]
      dsimp only
      generalize parseHeaderLines (part.drop (lineEnd + 2)) { method, path, version } = req
        at hreq ⊢
      subst hreq
      rfl

/-- **The result of parsing**, with the header block line by line. -/
theorem parseResult_eq (ctx : ConnectionHttpContext) {s requestLine : Bytes} {headerEnd : ℕ}
    {lines : List Bytes} (hfind : Search.find crlfcrlf s = some headerEnd)
    (hlines : splitLines (s.take headerEnd) = requestLine :: lines) :
    parseResult ctx s
      = if lines = [] then .ok (unparsed ctx {})
        else
          match parseRequestLine requestLine with
          | none => .ok (unparsed ctx {})
          | some (method, path, version) =>
            let req : HttpRequest := { method, path, version, headers := headersOf lines.dropLast }
            match contentLength req with
            | .error e => .error e
            | .ok length =>
              if maxBodySize < length ∨ s.length < headerEnd + 4 + length
              then .ok (unparsed ctx req)
              else
                let req' := completeRequest req path length ((s.drop (headerEnd + 4)).take length)
                .ok ⟨true, headerEnd + 4 + length, keepAlive req' version, req'.method, req'.path,
                  req'.version, req'.body, req'.formData⟩ := by
  unfold parseResult parseHttpRequest
  dsimp only
  rw [hfind]
  dsimp only
  rw [parseHeaderPart_lines hlines]
  by_cases hnil : lines = []
  · rw [if_pos hnil, if_pos hnil]
    simp [unparsed]
  · rw [if_neg hnil, if_neg hnil]
    cases parseRequestLine requestLine with
    | none => simp [unparsed]
    | some tokens =>
      obtain ⟨method, path, version⟩ := tokens
      dsimp only
      cases contentLength _ with
      | error e => rfl
      | ok length =>
        dsimp only
        by_cases hbig : maxBodySize < length
        · rw [if_pos hbig, if_pos (Or.inl hbig)]
          simp [unparsed]
        · rw [if_neg hbig]
          dsimp only
          by_cases hshort : s.length < headerEnd + 4 + length
          · rw [if_pos hshort, if_pos (Or.inr hshort)]
            simp [unparsed]
          · rw [if_neg hshort, if_neg (not_or.mpr ⟨hbig, hshort⟩)]
            have hremoved : s.length - (s.drop (headerEnd + 4 + length)).length
                = headerEnd + 4 + length := by
              rw [List.length_drop]
              omega
            simp only [hremoved]

/-! ## Requests whose spelling does not matter -/

/-- A request without a body and with the connection as its version has it. -/
def bodiless (method path version : Bytes) (headerEnd : ℕ) : ParseResult :=
  ⟨true, headerEnd + 4, version == lit "HTTP/1.1", method,
    (match Search.find (lit "?") path with
      | none => path
      | some queryPos => path.take queryPos), version, [], ∅⟩

/-- The parts of a request that is complete without a body. -/
theorem completeRequest_zero (method path version : Bytes) (headers : StringMap) :
    let req := completeRequest { method, path, version, headers } path 0 []
    req.method = method ∧ req.version = version ∧ req.headers = headers ∧ req.body = []
      ∧ req.formData = ∅
      ∧ req.path = (match Search.find (lit "?") path with
          | none => path
          | some queryPos => path.take queryPos) := by
  have hform : ∀ path : Bytes,
      HttpRequest.parseFormData { method, path, version, headers }
        = { method, path, version, headers } := fun path =>
    HttpRequest.parseFormData_of_nil rfl rfl
  unfold completeRequest
  rw [if_neg (Nat.lt_irrefl 0)]
  cases Search.find (lit "?") path with
  | none =>
    dsimp only
    rw [hform, ite_self]
    exact ⟨rfl, rfl, rfl, rfl, rfl, rfl⟩
  | some queryPos =>
    dsimp only
    rw [hform, ite_self]
    exact ⟨rfl, rfl, rfl, rfl, rfl, rfl⟩

/-- What a lookup finds was in a field of that name. -/
theorem getHeader_headersOf {P : Bytes → Prop} (lines : List Bytes) (key : Bytes) (hnil : P [])
    (h : ∀ f ∈ lines.filterMap headerField, toLower f.1 = toLower key → P f.2)
    (req : HttpRequest) : P ({ req with headers := headersOf lines }.getHeader key) := by
  unfold HttpRequest.getHeader headersOf
  dsimp only
  cases hvalue : (headerMap (lines.filterMap headerField)).lookup key with
  | none => exact hnil
  | some value => exact h (key, value) (mem_of_lookup_headerMap hvalue) rfl

/-- When the connection is kept as the version of the protocol has it. -/
theorem keepAlive_eq_iff (req : HttpRequest) (version : Bytes) :
    keepAlive req version = (version == lit "HTTP/1.1")
      ↔ req.getHeader (lit "Connection") = []
        ∨ (req.getHeader (lit "Connection") = lit "keep-alive" ↔ version = lit "HTTP/1.1") := by
  unfold keepAlive
  dsimp only
  cases hvalue : req.getHeader (lit "Connection") with
  | nil =>
    have hne : (([] : Bytes) == lit "keep-alive") = false := by decide
    rw [hne]
    exact iff_of_true rfl (Or.inl rfl)
  | cons c v =>
    rw [List.isEmpty_cons, Bool.false_and, Bool.or_false, Bool.eq_iff_iff, beq_iff_eq, beq_iff_eq]
    exact ⟨Or.inr, fun h => h.resolve_left (List.cons_ne_nil _ _)⟩

/-- **A request without a body**, whose connection is kept as its version has it. -/
theorem parseResult_of_zero (ctx : ConnectionHttpContext)
    {s requestLine method path version : Bytes} {headerEnd : ℕ} {lines : List Bytes}
    (hfind : Search.find crlfcrlf s = some headerEnd)
    (hlines : splitLines (s.take headerEnd) = requestLine :: lines) (hne : lines ≠ [])
    (htokens : parseRequestLine requestLine = some (method, path, version))
    {req : HttpRequest}
    (hreq : req = { method, path, version, headers := headersOf lines.dropLast })
    (hlength : contentLength req = .ok 0)
    (hconn : req.getHeader (lit "Connection") = []
      ∨ (req.getHeader (lit "Connection") = lit "keep-alive" ↔ version = lit "HTTP/1.1")) :
    parseResult ctx s = .ok (bodiless method path version headerEnd) := by
  have hend := Search.add_length_le_of_find hfind (by decide)
  have hfour : crlfcrlf.length = 4 := rfl
  have hfits : ¬ (maxBodySize < 0 ∨ s.length < headerEnd + 4 + 0) := by omega
  have hkeep : ∀ req' : HttpRequest, req'.headers = headersOf lines.dropLast →
      keepAlive req' version = (version == lit "HTTP/1.1") := by
    intro req' hheaders
    have hget : req'.getHeader (lit "Connection") = req.getHeader (lit "Connection") := by
      rw [HttpRequest.getHeader, HttpRequest.getHeader, hheaders, hreq]
    exact (keepAlive_eq_iff req' version).mpr (hget ▸ hconn)
  obtain ⟨hmethod, hversion, hheaders, hbody, hform, hpath⟩ :=
    completeRequest_zero method path version (headersOf lines.dropLast)
  rw [parseResult_eq ctx hfind hlines, if_neg hne, htokens]
  dsimp only
  rw [← hreq, hlength]
  dsimp only
  rw [if_neg hfits, List.take_zero, hreq, hkeep _ hheaders, hmethod, hpath, hversion, hbody, hform]
  rfl

/-- **Where every field is redundant, none makes a difference.** -/
theorem parseResult_of_redundant (ctx : ConnectionHttpContext)
    {s requestLine method path version : Bytes} {headerEnd : ℕ} {lines : List Bytes}
    (hfind : Search.find crlfcrlf s = some headerEnd)
    (hlines : splitLines (s.take headerEnd) = requestLine :: lines) (hne : lines ≠ [])
    (htokens : parseRequestLine requestLine = some (method, path, version))
    (hred : ∀ f ∈ lines.dropLast.filterMap headerField, Redundant version f) :
    parseResult ctx s = .ok (bodiless method path version headerEnd) := by
  refine parseResult_of_zero ctx hfind hlines hne htokens rfl ?_ ?_
  · have hvalue := getHeader_headersOf (P := fun v => v = [] ∨ stoul v = .ok 0)
      lines.dropLast (lit "Content-Length") (Or.inl rfl)
      (fun f hf hname => (hred f hf).length (hname.trans (by decide))) { method, path, version }
    unfold contentLength
    dsimp only at hvalue ⊢
    rcases hvalue with hnil | hzero
    · rw [hnil]
      rfl
    · rw [hzero, ite_self]
  · exact getHeader_headersOf
      (P := fun v => v = [] ∨ (v = lit "keep-alive" ↔ version = lit "HTTP/1.1"))
      lines.dropLast (lit "Connection") (Or.inl rfl)
      (fun f hf hname => (hred f hf).connection (hname.trans (by decide))) { method, path, version }

/-- The version that is named in the first of several lines. -/
theorem requestVersion_eq {s requestLine : Bytes} {headerEnd : ℕ} {lines : List Bytes}
    (hlines : splitLines (s.take headerEnd) = requestLine :: lines) (hne : lines ≠ []) :
    requestVersion s = (parseRequestLine requestLine).map fun p => p.2.2 := by
  cases hline : Search.find crlf (s.take headerEnd) with
  | none =>
    rw [splitLines_of_none hline] at hlines
    exact absurd (List.cons.inj hlines).2.symm hne
  | some lineEnd =>
    rw [splitLines_of_some hline] at hlines
    obtain ⟨hfind, htake⟩ := Search.find_of_find_take hline (by decide)
    rw [requestVersion, hfind, Option.bind_some, ← htake, (List.cons.inj hlines).1]

/-- The fields that are parsed of a complete header block. -/
theorem headerFields_eq {s requestLine : Bytes} {headerEnd : ℕ} {lines : List Bytes}
    (hfind : Search.find crlfcrlf s = some headerEnd)
    (hlines : splitLines (s.take headerEnd) = requestLine :: lines) :
    headerFields s = lines.dropLast.filterMap headerField := by
  rw [headerFields, headerLines, hfind]
  dsimp only
  rw [hlines, List.tail_cons]

/-- **Requests whose spelling does not matter** are parsed in the same way in every other
spelling. -/
theorem parseResult_of_caseFree (ctx : ConnectionHttpContext) {s s' : Bytes} (hfree : CaseFree s)
    (h : CaseVariant s s') : parseResult ctx s' = parseResult ctx s := by
  cases hfind : Search.find crlfcrlf s with
  | none =>
    have hnone : ∀ t : Bytes, Search.find crlfcrlf t = none →
        parseResult ctx t = .ok (unparsed ctx {}) := by
      intro t ht
      unfold parseResult parseHttpRequest
      dsimp only
      rw [ht]
      simp [unparsed]
    rw [hnone s' (h.find_eq.trans hfind), hnone s hfind]
  | some headerEnd =>
    obtain ⟨line, lines, lines', hlines, hlines', hsame⟩ := h.lines hfind
    have hfind' := h.find_eq.trans hfind
    by_cases hnil : lines = []
    · subst hnil
      obtain rfl := List.forall₂_nil_left_iff.mp hsame
      rw [parseResult_eq ctx hfind hlines, parseResult_eq ctx hfind' hlines', if_pos rfl,
        if_pos rfl]
    · have hnil' : lines' ≠ [] := by
        rintro rfl
        exact hnil (List.forall₂_nil_right_iff.mp hsame)
      cases htokens : parseRequestLine line with
      | none =>
        rw [parseResult_eq ctx hfind hlines, parseResult_eq ctx hfind' hlines', if_neg hnil,
          if_neg hnil', htokens]
      | some tokens =>
        obtain ⟨method, path, version⟩ := tokens
        have hred : ∀ f ∈ lines.dropLast.filterMap headerField, Redundant version f := by
          rw [← headerFields_eq hfind hlines]
          refine hfree version ?_
          rw [requestVersion_eq hlines hnil, htokens]
          rfl
        have hdrop : List.Forall₂ SameField lines.dropLast lines'.dropLast := by
          rw [List.dropLast_eq_take, List.dropLast_eq_take, ← hsame.length_eq]
          exact List.forall₂_take _ hsame
        have hred' := redundant_of_forall₂ (forall₂_headerField hdrop) hred
        rw [parseResult_of_redundant ctx hfind hlines hnil htokens hred,
          parseResult_of_redundant ctx hfind' hlines' hnil' htokens hred']

/-! ## Spellings that do matter -/

/-- A header line with its name in small letters. -/
def lowerName (line : Bytes) : Bytes :=
  match Search.find (lit ":") line with
  | none => line
  | some colonPos => toLower (line.take colonPos) ++ line.drop colonPos

/-- A line with a field, cut at the colon. -/
theorem line_of_headerField {line : Bytes} {f : Bytes × Bytes} (h : headerField line = some f) :
    ∃ value, 0x3A ∉ f.1 ∧ line = f.1 ++ 0x3A :: value ∧ f.2 = value.dropWhile isBlank := by
  obtain ⟨colonPos, hfind, rfl⟩ := Option.map_eq_some_iff.mp h
  obtain ⟨hcolon, hline⟩ := Search.split_of_find_singleton (c := 0x3A) hfind
  exact ⟨line.drop (colonPos + 1), hcolon, hline, rfl⟩

theorem lowerName_append {name : Bytes} (hname : 0x3A ∉ name) (value : Bytes) :
    lowerName (name ++ 0x3A :: value) = toLower name ++ 0x3A :: value := by
  have hfind : Search.find (lit ":") (name ++ 0x3A :: value) = some name.length :=
    Search.find_append_pattern (p := []) hname value
  rw [lowerName, hfind]
  dsimp only
  rw [List.take_left, List.drop_left]

theorem sameField_lowerName (line : Bytes) : SameField line (lowerName line) := by
  cases hf : headerField line with
  | none =>
    have hfind : Search.find (lit ":") line = none := Option.map_eq_none_iff.mp hf
    left
    rw [lowerName, hfind]
  | some f =>
    obtain ⟨value, hcolon, hline, -⟩ := line_of_headerField hf
    refine Or.inr ⟨f.1, toLower f.1, value, hcolon, toLower_toLower f.1, hline, ?_⟩
    rw [hline, lowerName_append hcolon]

theorem forall₂_lowerName (lines : List Bytes) :
    List.Forall₂ SameField lines (lines.map lowerName) := by
  rw [List.forall₂_map_right_iff]
  exact List.forall₂_same.mpr fun line _ => sameField_lowerName line

/-- In small letters no field has a name with a capital. -/
theorem notMem_names_lowerName {key : Bytes} (hkey : toLower key ≠ key) (lines : List Bytes) :
    key ∉ ((lines.map lowerName).filterMap headerField).map Prod.fst := by
  intro hmem
  obtain ⟨f, hf, rfl⟩ := List.mem_map.mp hmem
  obtain ⟨line', hline', hfield⟩ := List.mem_filterMap.mp hf
  obtain ⟨line, -, rfl⟩ := List.mem_map.mp hline'
  refine hkey ?_
  cases hf : headerField line with
  | none =>
    have hfind : Search.find (lit ":") line = none := Option.map_eq_none_iff.mp hf
    rw [lowerName, hfind] at hfield
    dsimp only at hfield
    rw [hf] at hfield
    cases hfield
  | some g =>
    obtain ⟨value, hcolon, hline, -⟩ := line_of_headerField hf
    have hcolon' := colon_notMem_of_toLower_eq (toLower_toLower g.1) hcolon
    rw [hline, lowerName_append hcolon, headerField_append hcolon'] at hfield
    cases hfield
    exact toLower_toLower g.1

/-- The header that is written last under a name. -/
theorem lookup_headerMap_middle {front back : List (Bytes × Bytes)} {key value : Bytes}
    (hback : key ∉ back.map Prod.fst) :
    (headerMap (front ++ (key, value) :: back)).lookup key = some value := by
  induction back using List.reverseRecOn with
  | nil => rw [headerMap_append, Finmap.lookup_insert]
  | append_singleton back last ih =>
    rw [List.map_append, List.mem_append, not_or] at hback
    have hne : key ≠ last.1 := fun h => hback.2 (h ▸ List.mem_cons_self)
    rw [← List.cons_append, ← List.append_assoc, headerMap_append,
      Finmap.lookup_insert_of_ne _ hne, ih hback.1]

/-- **A field can be spelled as it is looked for**, and all others in small letters. -/
theorem exists_spelled {lines : List Bytes} {f : Bytes × Bytes} {key : Bytes}
    (hf : f ∈ lines.dropLast.filterMap headerField) (hname : toLower key = toLower f.1)
    (hkey : toLower key ≠ key) :
    ∃ lines', List.Forall₂ SameField lines lines'
      ∧ (headersOf lines'.dropLast).lookup key = some f.2 := by
  obtain ⟨line, hline, hfield⟩ := List.mem_filterMap.mp hf
  obtain ⟨value, hcolon, hcut, hvalue⟩ := line_of_headerField hfield
  have hcolon' := colon_notMem_of_toLower_eq hname hcolon
  obtain ⟨front, back, hsplit⟩ := List.append_of_mem hline
  have hne : lines ≠ [] := by
    rintro rfl
    cases hline
  have hlines : lines = (front ++ line :: back) ++ [lines.getLast hne] := by
    rw [← hsplit, List.dropLast_append_getLast]
  set spelled : Bytes := key ++ 0x3A :: value with hspelled
  have hsame : SameField line spelled := Or.inr ⟨f.1, key, value, hcolon, hname, hcut, rfl⟩
  refine ⟨(front.map lowerName ++ spelled :: back.map lowerName) ++ [lines.getLast hne], ?_, ?_⟩
  · conv => lhs; rw [hlines]
    exact List.rel_append (List.rel_append (forall₂_lowerName front)
      (List.Forall₂.cons hsame (forall₂_lowerName back)))
      (List.Forall₂.cons (Or.inl rfl) List.Forall₂.nil)
  · have hfields : (front.map lowerName ++ spelled :: back.map lowerName).filterMap headerField
        = (front.map lowerName).filterMap headerField
          ++ (key, f.2) :: (back.map lowerName).filterMap headerField := by
      rw [List.filterMap_append, List.filterMap_cons_some (headerField_append hcolon' value),
        hvalue]
    rw [List.dropLast_concat, headersOf, hfields]
    exact lookup_headerMap_middle (notMem_names_lowerName hkey back)

/-- **What such a result says of the headers**: no body is announced, and the connection is kept
as the version has it. -/
theorem of_parseResult_bodiless {ctx : ConnectionHttpContext}
    {s requestLine method path version : Bytes} {headerEnd : ℕ} {lines : List Bytes}
    (hfind : Search.find crlfcrlf s = some headerEnd)
    (hlines : splitLines (s.take headerEnd) = requestLine :: lines) (hne : lines ≠ [])
    (htokens : parseRequestLine requestLine = some (method, path, version))
    {req : HttpRequest}
    (hreq : req = { method, path, version, headers := headersOf lines.dropLast })
    (h : parseResult ctx s = .ok (bodiless method path version headerEnd)) :
    contentLength req = .ok 0
      ∧ (req.getHeader (lit "Connection") = []
        ∨ (req.getHeader (lit "Connection") = lit "keep-alive" ↔ version = lit "HTTP/1.1")) := by
  rw [parseResult_eq ctx hfind hlines, if_neg hne, htokens] at h
  dsimp only at h
  rw [← hreq] at h
  cases hlength : contentLength req with
  | error e =>
    rw [hlength] at h
    cases h
  | ok length =>
    rw [hlength] at h
    dsimp only at h
    by_cases hshort : maxBodySize < length ∨ s.length < headerEnd + 4 + length
    · rw [if_pos hshort] at h
      exact absurd (congrArg ParseResult.parsed (Except.ok.inj h)) Bool.false_ne_true
    · rw [if_neg hshort] at h
      have hresult := Except.ok.inj h
      have hremoved : headerEnd + 4 + length = headerEnd + 4 := congrArg ParseResult.removed hresult
      obtain rfl : length = 0 := by omega
      have hkeep := congrArg ParseResult.isKeepAlive hresult
      have hconn := (keepAlive_eq_iff _ version).mp hkeep
      refine ⟨rfl, ?_⟩
      rw [HttpRequest.getHeader, completeRequest_headers] at hconn
      exact hconn

/-- In small letters none of the headers is found. -/
theorem parseResult_lowerName (ctx : ConnectionHttpContext)
    {s requestLine method path version : Bytes} {headerEnd : ℕ} {lines : List Bytes}
    (hfind : Search.find crlfcrlf s = some headerEnd)
    (hlines : splitLines (s.take headerEnd) = requestLine :: lines.map lowerName) (hne : lines ≠ [])
    (htokens : parseRequestLine requestLine = some (method, path, version)) :
    parseResult ctx s = .ok (bodiless method path version headerEnd) := by
  have hget : ∀ key, toLower key ≠ key →
      ({ method, path, version, headers := headersOf (lines.map lowerName).dropLast }
        : HttpRequest).getHeader key = [] := by
    intro key hkey
    have hlookup : (headersOf (lines.map lowerName).dropLast).lookup key = none := by
      rw [← List.map_dropLast]
      exact lookup_headerMap_of_notMem (notMem_names_lowerName hkey _)
    rw [HttpRequest.getHeader, hlookup]
    rfl
  refine parseResult_of_zero ctx hfind hlines (List.map_eq_nil_iff.not.mpr hne) htokens rfl ?_
    (Or.inl (hget _ (by decide)))
  rw [contentLength, hget _ (by decide)]
  rfl

/-- **A field that is not redundant shows in some spelling.** -/
theorem caseFree_of_forall (ctx : ConnectionHttpContext) {s : Bytes}
    (h : ∀ s', CaseVariant s s' → parseResult ctx s' = parseResult ctx s) : CaseFree s := by
  intro version hversion f hf
  cases hfind : Search.find crlfcrlf s with
  | none =>
    rw [headerFields, headerLines, hfind] at hf
    cases hf
  | some headerEnd =>
    cases hlines : splitLines (s.take headerEnd) with
    | nil => exact absurd hlines (splitLines_ne_nil _)
    | cons line lines =>
      rw [headerFields_eq hfind hlines] at hf
      have hne : lines ≠ [] := by
        rintro rfl
        cases hf
      rw [requestVersion_eq hlines hne] at hversion
      obtain ⟨⟨method, path, v⟩, htokens, hv⟩ := Option.map_eq_some_iff.mp hversion
      obtain rfl : v = version := hv
      -- with all names in small letters the request has no body
      have hlow := forall₂_lowerName lines
      have hlowVariant := caseVariant_of_lines hfind hlines hlow
      have hbase := h _ hlowVariant
      rw [parseResult_lowerName ctx (hlowVariant.find_eq.trans hfind)
        (splitLines_respell hfind hlines hlow) hne htokens] at hbase
      -- and so it is with one of them as it is looked for
      have hspell : ∀ key, toLower key = toLower f.1 → toLower key ≠ key →
          ∃ lines' : List Bytes, (headersOf lines'.dropLast).lookup key = some f.2 ∧
            let req : HttpRequest :=
              { method, path, version := v, headers := headersOf lines'.dropLast }
            contentLength req = .ok 0 ∧ (req.getHeader (lit "Connection") = []
              ∨ (req.getHeader (lit "Connection") = lit "keep-alive"
                ↔ v = lit "HTTP/1.1")) := by
        intro key hname hkey
        obtain ⟨lines', hsame, hspelled⟩ := exists_spelled hf hname hkey
        have hvariant := caseVariant_of_lines hfind hlines hsame
        have hne' : lines' ≠ [] := by
          rintro rfl
          exact hne (List.forall₂_nil_right_iff.mp hsame)
        exact ⟨lines', hspelled, of_parseResult_bodiless (hvariant.find_eq.trans hfind)
          (splitLines_respell hfind hlines hsame) hne' htokens rfl
          ((h _ hvariant).trans hbase.symm)⟩
      refine ⟨fun hname => ?_, fun hname => ?_⟩
      · obtain ⟨lines', hspelled, hlength, -⟩ :=
          hspell (lit "Content-Length") (by rw [hname]; decide) (by decide)
        unfold contentLength HttpRequest.getHeader at hlength
        dsimp only at hlength
        rw [hspelled, Option.getD_some] at hlength
        by_cases hnil : f.2 = []
        · exact Or.inl hnil
        · rw [if_neg (hnil ∘ List.isEmpty_iff.mp)] at hlength
          exact Or.inr hlength
      · obtain ⟨lines', hspelled, -, hconn⟩ :=
          hspell (lit "Connection") (by rw [hname]; decide) (by decide)
        unfold HttpRequest.getHeader at hconn
        dsimp only at hconn
        rw [hspelled, Option.getD_some] at hconn
        exact hconn

/-- **When the case of header names makes no difference.** Every spelling of the header names in a
buffer leads to the same result exactly if no field announces a body and none says of the
connection what the version of the protocol does not say. -/
theorem headerCase_iff (ctx : ConnectionHttpContext) (s : Bytes) :
    (∀ s', CaseVariant s s' → parseResult ctx s' = parseResult ctx s) ↔ CaseFree s :=
  ⟨caseFree_of_forall ctx, fun hfree _ h => parseResult_of_caseFree ctx hfree h⟩

/-- A request with a body. -/
def postBody : Bytes := lit "POST / HTTP/1.1\r\nContent-Length: 5\r\nHost: x\r\n\r\nhello"

/-- The same with its header names in small letters. -/
def postBodyLower : Bytes := lit "POST / HTTP/1.1\r\ncontent-length: 5\r\nhost: x\r\n\r\nhello"

/-- **The body of a request** is taken for the next request when its length is announced in small
letters. -/
theorem headerCase_differs :
    CaseVariant postBody postBodyLower
      ∧ parseResult {} postBody = .ok ⟨true, 47 + 5, true, lit "POST", lit "/", lit "HTTP/1.1",
          lit "hello", ∅⟩
      ∧ parseResult {} postBodyLower = .ok ⟨true, 47, true, lit "POST", lit "/", lit "HTTP/1.1",
          [], ∅⟩ := by
  refine ⟨?_, ?_, ?_⟩
  · refine ⟨lit "POST / HTTP/1.1", [lit "Content-Length: 5", lit "Host: x"],
      [lit "content-length: 5", lit "host: x"], by decide +kernel, ?_, by decide +kernel⟩
    refine .cons (Or.inr ⟨lit "Content-Length", lit "content-length", lit " 5", ?_⟩)
      (.cons (Or.inr ⟨lit "Host", lit "host", lit " x", ?_⟩) .nil)
    · decide
    · decide
  · decide +kernel
  · decide +kernel
