import HttpServer.ParseHttpRequest

/-!
# Parsing with the checks of `std::string`

`substr` throws where the position is behind the end of the string. The functions of
`Checked` are those of the source with these checks, and with absolute positions where the
source has them: a loop over the header lines that carries the position of the next one,
and a loop over the form data that carries the position behind the last ampersand.

Every position comes from a search that succeeded, so that no check fails:
`Checked.parseHttpRequest_eq`. What is left of the exceptions is that of `std::stoul`.
-/

/-- `substr`. -/
def substr (s : Bytes) (pos count : ℕ) : Except StdException Bytes :=
  if s.length < pos then .error .outOfRange else .ok ((s.drop pos).take count)

/-- `substr` to the end of the string. -/
def substrFrom (s : Bytes) (pos : ℕ) : Except StdException Bytes :=
  if s.length < pos then .error .outOfRange else .ok (s.drop pos)

/-- `find` from a position on. -/
def findFrom (pat s : Bytes) (pos : ℕ) : Option ℕ := (Search.find pat (s.drop pos)).map (pos + ·)

section

variable {pat s : Bytes} {pos i : ℕ}

theorem substr_eq (h : pos ≤ s.length) (count : ℕ) :
    substr s pos count = .ok ((s.drop pos).take count) := if_neg (Nat.not_lt.mpr h)

theorem substrFrom_eq (h : pos ≤ s.length) : substrFrom s pos = .ok (s.drop pos) :=
  if_neg (Nat.not_lt.mpr h)

theorem findFrom_eq_some_iff :
    findFrom pat s pos = some i ↔ ∃ n, Search.find pat (s.drop pos) = some n ∧ pos + n = i :=
  Option.map_eq_some_iff

theorem findFrom_eq_none_iff : findFrom pat s pos = none ↔ Search.find pat (s.drop pos) = none :=
  Option.map_eq_none_iff

/-- What is found lies behind the position and within the string. -/
theorem bounds_of_findFrom (h : findFrom pat s pos = some i) (hne : pat ≠ []) :
    pos ≤ i ∧ i + pat.length ≤ s.length := by
  obtain ⟨n, hfind, rfl⟩ := findFrom_eq_some_iff.mp h
  have hle := Search.add_length_le_of_find hfind hne
  have hpos := List.length_pos_of_ne_nil hne
  rw [List.length_drop] at hle
  omega

end

namespace Checked

/-! ## The source -/

/-- A piece of the form data. -/
def addFormPair (formData : StringMap) (pair : Bytes) : Except StdException StringMap :=
  match Search.find (lit "=") pair with
  | none => .ok formData
  | some eqPos => do
    let key ← substr pair 0 eqPos
    let value ← substrFrom pair (eqPos + 1)
    .ok (formData.insert (urlDecode key) (urlDecode value))

/-- The loop of `ParseFormData` over the pieces between the ampersands. -/
def formPairs (body : Bytes) (start : ℕ) (formData : StringMap) :
    Except StdException StringMap :=
  match hfind : findFrom (lit "&") body start with
  | none => do
    let pair ← substrFrom body start
    addFormPair formData pair
  | some stop => do
    have : body.length - (stop + 1) < body.length - start := by
      have := bounds_of_findFrom hfind (by decide)
      have : (lit "&").length = 1 := rfl
      omega
    let pair ← substr body start (stop - start)
    let formData ← addFormPair formData pair
    formPairs body (stop + 1) formData
termination_by body.length - start

/-- `ParseFormData`. -/
def parseFormData (req : HttpRequest) : Except StdException HttpRequest :=
  if Search.contains (lit "application/x-www-form-urlencoded") (req.getHeader (lit "Content-Type"))
  then do
    let formData ← formPairs req.body 0 ∅
    .ok { req with formData }
  else .ok req

/-- One header line. The blanks are erased from position 0 on, which does not throw. -/
def parseHeaderLine (req : HttpRequest) (headerLine : Bytes) : Except StdException HttpRequest :=
  match Search.find (lit ":") headerLine with
  | none => .ok req
  | some colonPos => do
    let key ← substr headerLine 0 colonPos
    let value ← substrFrom headerLine (colonPos + 1)
    .ok (req.addHeader key (value.dropWhile isBlank))

/-- The loop over the header lines, from a position in the header part on. -/
def parseHeaderLines (headerPart : Bytes) (pos : ℕ) (req : HttpRequest) :
    Except StdException HttpRequest :=
  if pos < headerPart.length then
    match hfind : findFrom crlf headerPart pos with
    | none => .ok req
    | some headerLineEnd => do
      have : headerPart.length - (headerLineEnd + 2) < headerPart.length - pos := by
        have := bounds_of_findFrom hfind (by decide)
        have : crlf.length = 2 := rfl
        omega
      let headerLine ← substr headerPart pos (headerLineEnd - pos)
      let req ← parseHeaderLine req headerLine
      parseHeaderLines headerPart (headerLineEnd + 2) req
  else .ok req
termination_by headerPart.length - pos

/-- The body is cut out of the buffer. -/
def setBody (req : HttpRequest) (buffer : Bytes) (bodyStart length : ℕ) :
    Except StdException HttpRequest :=
  if 0 < length then do
    let body ← substr buffer bodyStart length
    .ok { req with body }
  else .ok req

/-- The query is cut off the path. -/
def cutQuery (req : HttpRequest) (path : Bytes) : Except StdException HttpRequest :=
  match Search.find (lit "?") path with
  | none => .ok req
  | some queryPos => do
    let path ← substr path 0 queryPos
    .ok { req with path }

/-- From the body on. -/
def completeRequest (req : HttpRequest) (path : Bytes) (buffer : Bytes) (bodyStart length : ℕ) :
    Except StdException HttpRequest := do
  let req ← setBody req buffer bodyStart length
  let req ← cutQuery req path
  if req.method = lit "POST"
      && Search.contains (lit "application/x-www-form-urlencoded")
      (req.getHeader (lit "Content-Type"))
  then parseFormData req else .ok req

/-- `ParseHttpRequest`. -/
def parseHttpRequest (ctx : ConnectionHttpContext) (req : HttpRequest) :
    Except StdException (Bool × ConnectionHttpContext × HttpRequest) :=
  match Search.find crlfcrlf ctx.buffer with
  | none => .ok (false, ctx, req)
  | some headerEnd => do
    let headerPart ← substr ctx.buffer 0 headerEnd
    match Search.find crlf headerPart with
    | none => .ok (false, ctx, req)
    | some lineEnd => do
      let requestLine ← substr headerPart 0 lineEnd
      match parseRequestLine requestLine with
      | none => .ok (false, ctx, req)
      | some (method, path, version) => do
        let req ← parseHeaderLines headerPart (lineEnd + 2) { req with method, path, version }
        let length ← contentLength req
        if maxBodySize < length then .ok (false, ctx, req)
        else
          let bodyStart := headerEnd + 4
          if ctx.buffer.length < bodyStart + length then .ok (false, ctx, req)
          else do
            let req ← completeRequest req path ctx.buffer bodyStart length
            let ctx :=
              { ctx with
                isKeepAlive := keepAlive req version
                buffer := ctx.buffer.drop (bodyStart + length) }
            .ok (true, ctx, req)

end Checked

/-! ## No check fails -/

/-- What follows a step that returns. -/
theorem Except.ok_bind {ε α β : Type} (a : α) (f : α → Except ε β) : (Except.ok a >>= f) = f a :=
  rfl

theorem addFormPair_checked (formData : StringMap) (pair : Bytes) :
    Checked.addFormPair formData pair = .ok (HttpRequest.addFormPair formData pair) := by
  unfold Checked.addFormPair HttpRequest.addFormPair
  cases hfind : Search.find (lit "=") pair with
  | none => rfl
  | some eqPos =>
    have hle : eqPos + 1 ≤ pair.length := Search.add_length_le_of_find hfind (by decide)
    dsimp only
    rw [substr_eq (Nat.zero_le _), Except.ok_bind, substrFrom_eq hle, Except.ok_bind,
      List.drop_zero]

/-- The loop over the form data goes through the pieces between the ampersands. -/
theorem formPairs_checked (body : Bytes) {start : ℕ} (hstart : start ≤ body.length)
    (formData : StringMap) :
    Checked.formPairs body start formData
      = .ok (((body.drop start).splitOn 0x26).foldl HttpRequest.addFormPair formData) := by
  induction hn : body.length - start using Nat.strongRecOn generalizing start formData with
  | _ n ih =>
    rw [Checked.formPairs]
    split
    · rename_i hnone
      have hmem : (0x26 : UInt8) ∉ body.drop start :=
        Search.notMem_of_find_singleton (findFrom_eq_none_iff.mp hnone)
      rw [substrFrom_eq hstart, Except.ok_bind, addFormPair_checked,
        List.splitOn_eq_singleton hmem, List.foldl_cons, List.foldl_nil]
    · rename_i stop hfind
      obtain ⟨hpos, hle⟩ := bounds_of_findFrom hfind (by decide)
      obtain ⟨i, hfind', rfl⟩ := findFrom_eq_some_iff.mp hfind
      have hamp : Search.find [0x26] (body.drop start) = some i := hfind'
      obtain ⟨hmem, hsplit⟩ := Search.split_of_find_singleton hamp
      have hlen : (lit "&").length = 1 := rfl
      rw [hlen] at hle
      have hrest : (body.drop start).drop (i + 1) = body.drop (start + i + 1) := by
        rw [List.drop_drop, Nat.add_assoc]
      rw [hrest] at hsplit
      rw [substr_eq hstart, Except.ok_bind, addFormPair_checked, Except.ok_bind,
        ih (body.length - (start + i + 1)) (by omega) hle _ rfl, Nat.add_sub_cancel_left]
      conv_rhs =>
        rw [hsplit, List.splitOn_append_cons_self, List.splitOn_eq_singleton hmem,
          List.singleton_append, List.foldl_cons]

theorem parseFormData_checked (req : HttpRequest) :
    Checked.parseFormData req = .ok req.parseFormData := by
  unfold Checked.parseFormData HttpRequest.parseFormData
  split
  · rw [formPairs_checked _ (Nat.zero_le _), Except.ok_bind, List.drop_zero]
  · rfl

theorem parseHeaderLine_checked (req : HttpRequest) (headerLine : Bytes) :
    Checked.parseHeaderLine req headerLine = .ok (parseHeaderLine req headerLine) := by
  unfold Checked.parseHeaderLine parseHeaderLine
  cases hfind : Search.find (lit ":") headerLine with
  | none => rfl
  | some colonPos =>
    have hle : colonPos + 1 ≤ headerLine.length := Search.add_length_le_of_find hfind (by decide)
    dsimp only
    rw [substr_eq (Nat.zero_le _), Except.ok_bind, substrFrom_eq hle, Except.ok_bind,
      List.drop_zero]

/-- The loop over the header lines is the one on what is left of the header part. -/
theorem parseHeaderLines_checked (headerPart : Bytes) (pos : ℕ) (req : HttpRequest) :
    Checked.parseHeaderLines headerPart pos req
      = .ok (parseHeaderLines (headerPart.drop pos) req) := by
  induction hn : headerPart.length - pos using Nat.strongRecOn generalizing pos req with
  | _ n ih =>
    rw [Checked.parseHeaderLines, parseHeaderLines]
    by_cases hlt : pos < headerPart.length
    · have hne : headerPart.drop pos ≠ [] := by
        rw [Ne, List.drop_eq_nil_iff]
        exact Nat.not_le.mpr hlt
      rw [if_pos hlt, dif_neg hne]
      split
      · rename_i hnone
        rw [findFrom_eq_none_iff.mp hnone]
      · rename_i headerLineEnd hfind
        obtain ⟨hpos, hle⟩ := bounds_of_findFrom hfind (by decide)
        obtain ⟨i, hfind', rfl⟩ := findFrom_eq_some_iff.mp hfind
        have hlen : crlf.length = 2 := rfl
        rw [hlen] at hle
        rw [substr_eq hlt.le, Except.ok_bind, parseHeaderLine_checked, Except.ok_bind,
          ih (headerPart.length - (pos + i + 2)) (by omega) _ _ rfl, Nat.add_sub_cancel_left,
          hfind']
        dsimp only
        rw [List.drop_drop, Nat.add_assoc]
    · have hnil : headerPart.drop pos = [] := List.drop_eq_nil_iff.mpr (Nat.not_lt.mp hlt)
      rw [if_neg hlt, dif_pos hnil]

theorem setBody_checked (req : HttpRequest) {buffer : Bytes} {bodyStart : ℕ}
    (hstart : bodyStart ≤ buffer.length) (length : ℕ) :
    Checked.setBody req buffer bodyStart length
      = .ok (if 0 < length then { req with body := (buffer.drop bodyStart).take length }
        else req) := by
  rw [Checked.setBody, substr_eq hstart, Except.ok_bind, apply_ite Except.ok]

theorem cutQuery_checked (req : HttpRequest) (path : Bytes) :
    Checked.cutQuery req path
      = .ok (match Search.find (lit "?") path with
        | none => req
        | some queryPos => { req with path := path.take queryPos }) := by
  unfold Checked.cutQuery
  cases Search.find (lit "?") path with
  | none => rfl
  | some queryPos =>
    dsimp only
    rw [substr_eq (Nat.zero_le _), Except.ok_bind, List.drop_zero]

theorem completeRequest_checked (req : HttpRequest) (path : Bytes) {buffer : Bytes}
    {bodyStart : ℕ} (hstart : bodyStart ≤ buffer.length) (length : ℕ) :
    Checked.completeRequest req path buffer bodyStart length
      = .ok (completeRequest req path length ((buffer.drop bodyStart).take length)) := by
  unfold Checked.completeRequest completeRequest
  rw [setBody_checked req hstart, Except.ok_bind, cutQuery_checked, Except.ok_bind,
    parseFormData_checked]
  exact (apply_ite Except.ok _ _ _).symm

/-- **No position is out of range**, whatever is in the buffer. -/
theorem parseHttpRequest_checked (ctx : ConnectionHttpContext) (req : HttpRequest) :
    Checked.parseHttpRequest ctx req = parseHttpRequest ctx req := by
  unfold Checked.parseHttpRequest parseHttpRequest parseHeaderPart
  cases Search.find crlfcrlf ctx.buffer with
  | none => rfl
  | some headerEnd =>
    dsimp only
    rw [substr_eq (Nat.zero_le _), Except.ok_bind, List.drop_zero]
    cases Search.find crlf (ctx.buffer.take headerEnd) with
    | none => rfl
    | some lineEnd =>
      dsimp only
      rw [substr_eq (Nat.zero_le _), Except.ok_bind, List.drop_zero]
      rcases parseRequestLine ((ctx.buffer.take headerEnd).take lineEnd)
        with - | ⟨method, path, version⟩
      · rfl
      · dsimp only
        rw [parseHeaderLines_checked, Except.ok_bind]
        cases contentLength _ with
        | error e => rfl
        | ok length =>
          rw [Except.ok_bind]
          dsimp only
          by_cases hmax : maxBodySize < length
          · rw [if_pos hmax, if_pos hmax]
          · rw [if_neg hmax, if_neg hmax]
            dsimp only
            by_cases hshort : ctx.buffer.length < headerEnd + 4 + length
            · rw [if_pos hshort, if_pos hshort]
            · rw [if_neg hshort, if_neg hshort, completeRequest_checked _ _ (by omega),
                Except.ok_bind]
