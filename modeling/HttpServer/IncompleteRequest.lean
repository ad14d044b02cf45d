import HttpServer.HeaderBlock

/-!
# Incomplete requests

`ParseHttpRequest` returns `false` for two reasons that the caller cannot tell apart: the
request is not there yet, or it never will be. `OnData` answers both by waiting for more
data. `Stuck` describes the buffers that nothing completes, and `incomplete_iff` says that
they are the only ones: to every other buffer something can be appended that makes a
request of it. Before the header block ends, that is what is missing of the request line
and a header line `Content-Length: 0`; behind it, the bytes of the body.
-/

/-- **Nothing completes the request** at the front of the buffer. -/
inductive Stuck (s : Bytes) : Prop
  /-- The first line has come, without three tokens on it. -/
  | requestLine {lineEnd : ℕ} (hopen : Search.find crlfcrlf s = none)
      (hline : Search.find crlf s = some lineEnd)
      (hbad : parseRequestLine (s.take lineEnd) = none)
  /-- The header block has come and cannot be read: its first line has not three tokens, or
  is its only one. -/
  | header {headerEnd : ℕ} (hend : Search.find crlfcrlf s = some headerEnd)
      (hbad : readHead s = none)
  /-- The header block announces a body beyond the limit. -/
  | body {headerEnd length : ℕ} {head : HttpRequest} (hhead : readHead s = some (headerEnd, head))
      (hlength : contentLength head = .ok length) (hbig : maxBodySize < length)

/-- There is something to append to the buffer that makes the parser succeed. -/
def Completable (ctx : ConnectionHttpContext) : Prop :=
  ∃ c, c ≠ [] ∧ ∃ ctx' req,
    parseHttpRequest { ctx with buffer := ctx.buffer ++ c } {} = .ok (true, ctx', req)

variable {s : Bytes}

/-! ## What stays stuck -/

/-- A header part that begins with a bad first line cannot be read. -/
theorem readHead_eq_none {lineEnd : ℕ} (hline : Search.find crlf s = some lineEnd)
    (hbad : parseRequestLine (s.take lineEnd) = none) : readHead s = none := by
  cases hhead : readHead s with
  | none => rfl
  | some p =>
    obtain ⟨headerEnd, head⟩ := p
    obtain ⟨-, lineEnd', method, path, version, hline', hparse, -⟩ :=
      readHead_eq_some_iff.mp hhead
    -- the first line of the header part is that of the buffer
    obtain ⟨hline'', htake⟩ := Search.find_of_find_take hline' (by decide)
    rw [hline, Option.some.injEq] at hline''
    subst hline''
    rw [htake, hbad] at hparse
    cases hparse

/-- **What is stuck stays stuck**, whatever is appended. -/
theorem Stuck.append (h : Stuck s) (t : Bytes) : Stuck (s ++ t) := by
  cases h with
  | @requestLine lineEnd hopen hline hbad =>
    have hle := Search.add_length_le_of_find hline (by decide)
    have hline' := Search.find_append_of_some hline t (by decide)
    have hbad' : parseRequestLine ((s ++ t).take lineEnd) = none := by
      rw [List.take_append_of_le_length (by omega)]
      exact hbad
    cases hend : Search.find crlfcrlf (s ++ t) with
    | none => exact .requestLine hend hline' hbad'
    | some headerEnd => exact .header hend (readHead_eq_none hline' hbad')
  | header hend hbad =>
    refine .header (Search.find_append_of_some hend t (by decide)) ?_
    rw [readHead_append hend, hbad]
  | body hhead hlength hbig =>
    have hend := (readHead_eq_some_iff.mp hhead).1
    exact .body ((readHead_append hend t).trans hhead) hlength hbig

/-- A parser that is stuck waits. -/
theorem Stuck.more (h : Stuck s) : nextRequest s = .more := by
  rw [nextRequest_eq]
  cases h with
  | requestLine hopen hline hbad => rw [readHead_eq_none hline hbad]
  | header hend hbad => rw [hbad]
  | body hhead hlength hbig =>
    rw [hhead]
    dsimp only
    rw [hlength]
    dsimp only
    rw [if_pos (Or.inl hbig)]

/-! ## What can be completed -/

/-- Behind a blank, the tokens are what they are without the text in front: that text has no
token, or its first token is extracted as it is. -/
theorem extractToken_append {c : UInt8} (hc : isSpace c = true) (s t : Bytes) :
    extractToken (s ++ c :: t) = extractToken (c :: t)
      ∨ ∃ token rest, extractToken (s ++ c :: t) = some (token, rest ++ c :: t) := by
  unfold extractToken
  dsimp only
  rw [List.dropWhile_append]
  cases hs : s.dropWhile isSpace with
  | nil => exact Or.inl rfl
  | cons d s' =>
    have hd : isSpace d = false := by
      have hhead := List.head?_dropWhile_not isSpace s
      rw [hs] at hhead
      simpa using hhead
    have hrest : (d :: s' ++ c :: t).dropWhile (fun c => !isSpace c)
        = (d :: s').dropWhile (fun c => !isSpace c) ++ c :: t := by
      rw [List.dropWhile_append]
      split
      · rename_i hnil
        rw [List.isEmpty_iff.mp hnil, List.dropWhile_cons_of_neg (by simp [hc])]
        rfl
      · rfl
    refine Or.inr ⟨(d :: s' ++ c :: t).takeWhile (fun c => !isSpace c),
      (d :: s').dropWhile (fun c => !isSpace c), ?_⟩
    rw [if_neg (List.cons_ne_nil _ _ ∘ List.isEmpty_iff.mp), if_neg (by simp [hd]), hrest]

/-- **Three more tokens make a request line.** -/
theorem exists_parseRequestLine (s : Bytes) :
    ∃ p, parseRequestLine (s ++ lit " a b c") = some p := by
  have htokens : ∀ u : Bytes, extractToken (u ++ lit " a b c") = some (lit "a", lit " b c")
      ∨ ∃ token rest, extractToken (u ++ lit " a b c") = some (token, rest ++ lit " a b c") :=
    fun u => extractToken_append (c := 0x20) rfl u (lit "a b c")
  have hb : extractToken (lit " b c") = some (lit "b", lit " c") := by decide
  have hc : extractToken (lit " c") = some (lit "c", []) := by decide
  unfold parseRequestLine
  rcases htokens s with h₁ | ⟨method, s₁, h₁⟩
  · simp only [h₁, Option.bind_some, hb, hc]
    exact ⟨_, rfl⟩
  · rcases htokens s₁ with h₂ | ⟨path, s₂, h₂⟩
    · simp only [h₁, h₂, Option.bind_some, hb]
      exact ⟨_, rfl⟩
    · rcases htokens s₂ with h₃ | ⟨version, s₃, h₃⟩
      · simp only [h₁, h₂, h₃, Option.bind_some]
        exact ⟨_, rfl⟩
      · simp only [h₁, h₂, h₃, Option.bind_some]
        exact ⟨_, rfl⟩

/-- The end of a header block without a body. -/
def closing : Bytes := lit "\r\nContent-Length: 0\r\ny\r\n\r\n"

/-- The part of it in front of the empty line. -/
def closingHead : Bytes := lit "\r\nContent-Length: 0\r\ny"

/-- The header line that it brings. -/
theorem contentLength_lastLine (req : HttpRequest) :
    contentLength (parseHeaderLines (lit "Content-Length: 0\r\ny") req) = .ok 0 := by
  have hlines : parseHeaderLines (lit "Content-Length: 0\r\ny") req
      = parseHeaderLine req (headerLine (lit "Content-Length", lit "0")) :=
    parseHeaderLines_append (show ∀ l ∈ [lit "Content-Length: 0"], 0x0D ∉ l by decide +kernel)
      (show 0x0D ∉ lit "y" by decide) req
  have hblank : ∀ c ∈ (lit "0").head?, isBlank c = false := by
    intro c hc
    cases hc
    rfl
  rw [hlines, parseHeaderLine_headerLine (by decide) hblank]
  unfold contentLength
  rw [HttpRequest.getHeader_addHeader]
  rfl

/-- **A length of 0 behind whatever header lines there are.** -/
theorem contentLength_closing (u : Bytes) (req : HttpRequest) :
    contentLength (parseHeaderLines (u ++ 0x78 :: closingHead) req) = .ok 0 := by
  -- the loop goes through the lines in front
  induction hn : u.length using Nat.strongRecOn generalizing u req with
  | _ n ih =>
    have hne : u ++ 0x78 :: closingHead ≠ [] := by simp
    rw [parseHeaderLines, dif_neg hne]
    cases hfind : Search.find crlf u with
    | some i =>
      have hle := Search.add_length_le_of_find hfind (by decide)
      have hlen : crlf.length = 2 := rfl
      rw [hlen] at hle
      rw [Search.find_append_of_some hfind _ (by decide)]
      dsimp only
      rw [List.drop_append_of_le_length hle]
      exact ih _ (by rw [List.length_drop]; omega) (u.drop (i + 2)) _ rfl
    | none =>
      have hcut : Search.find crlf (u ++ 0x78 :: closingHead) = some (u.length + 1) := by
        have hzero : Search.find crlf closingHead = some 0 := rfl
        rw [Search.find_append_cons_of_none (by decide) (by decide) hfind, hzero,
          Option.map_some, Nat.zero_add]
      have hdrop : (u ++ 0x78 :: closingHead).drop (u.length + 1 + 2)
          = lit "Content-Length: 0\r\ny" := by
        rw [Nat.add_assoc, ← List.drop_drop, List.drop_left]
        rfl
      rw [hcut]
      dsimp only
      rw [hdrop]
      exact contentLength_lastLine _

/-- The header block of an open buffer ends where the text behind it says. -/
theorem find_crlfcrlf_behind (hopen : Search.find crlfcrlf s = none) {c : UInt8}
    (hc : c ∉ crlfcrlf) {v : Bytes} {n : ℕ} (hv : Search.find crlfcrlf v = some n) :
    Search.find crlfcrlf (s ++ c :: v) = some (s ++ c :: v.take n).length
      ∧ (s ++ c :: v).take (s ++ c :: v.take n).length = s ++ c :: v.take n := by
  have hle := Search.add_length_le_of_find hv (by decide)
  have hlen : (s ++ c :: v.take n).length = n + (s.length + 1) := by
    rw [List.length_append, List.length_cons, List.length_take, Nat.min_eq_left (by omega)]
    omega
  refine ⟨by rw [hlen, Search.find_append_cons_of_none (by decide) hc hopen, hv,
    Option.map_some], ?_⟩
  have hsplit : s ++ c :: v = (s ++ c :: v.take n) ++ v.drop n := by
    rw [List.append_assoc, List.cons_append, List.take_append_drop]
  exact (congrArg (List.take _) hsplit).trans List.take_left

/-- A header block without a body is a request. -/
theorem exists_item_of_readHead {headerEnd : ℕ} {head : HttpRequest}
    (hhead : readHead s = some (headerEnd, head)) (hlength : contentLength head = .ok 0) :
    ∃ item rest, nextRequest s = .item item rest :=
  exists_item_iff.mpr ⟨headerEnd, head, 0, hhead, hlength, Nat.zero_le _,
    Search.add_length_le_of_find (readHead_eq_some_iff.mp hhead).1 (by decide)⟩

/-- A first line without a terminator can be completed. -/
theorem exists_item_firstLine (hopen : Search.find crlfcrlf s = none)
    (hline : Search.find crlf s = none) :
    ∃ item rest, nextRequest (s ++ (lit " a b c" ++ closing)) = .item item rest := by
  have hcat : s ++ (lit " a b c" ++ closing) = s ++ 0x20 :: (lit "a b c" ++ closing) := rfl
  obtain ⟨hfind, htake⟩ := find_crlfcrlf_behind hopen (c := 0x20) (by decide)
    (v := lit "a b c" ++ closing) (n := 27) (by decide +kernel)
  have hhead : (lit "a b c" ++ closing).take 27 = lit "a b c" ++ closingHead := by decide +kernel
  rw [hhead] at hfind htake
  have hline' : Search.find crlf (s ++ 0x20 :: (lit "a b c" ++ closingHead))
      = some (s ++ lit " a b c").length := by
    have hfive : Search.find crlf (lit "a b c" ++ closingHead) = some 5 := by decide +kernel
    rw [Search.find_append_cons_of_none (by decide) (by decide) hline, hfive, Option.map_some,
      List.length_append, Nat.add_comm]
    rfl
  have hsplit : s ++ 0x20 :: (lit "a b c" ++ closingHead) = s ++ lit " a b c" ++ closingHead := by
    rw [List.append_assoc]
    rfl
  obtain ⟨⟨method, path, version⟩, hparse⟩ := exists_parseRequestLine s
  rw [hcat]
  refine exists_item_of_readHead (readHead_eq_some_iff.mpr ⟨hfind, _, method, path, version,
    by rw [htake]; exact hline', ?_, rfl⟩) ?_
  · rw [htake, hsplit, List.take_left]
    exact hparse
  · rw [htake, hsplit, ← List.drop_drop, List.drop_left]
    exact contentLength_lastLine _

/-- Header lines without an empty line can be completed, behind a good first line. -/
theorem exists_item_headers (hopen : Search.find crlfcrlf s = none) {lineEnd : ℕ}
    (hline : Search.find crlf s = some lineEnd) {p : Bytes × Bytes × Bytes}
    (hparse : parseRequestLine (s.take lineEnd) = some p) :
    ∃ item rest, nextRequest (s ++ 0x78 :: closing) = .item item rest := by
  obtain ⟨method, path, version⟩ := p
  have hle := Search.add_length_le_of_find hline (by decide)
  have hlen : crlf.length = 2 := rfl
  rw [hlen] at hle
  obtain ⟨hfind, htake⟩ := find_crlfcrlf_behind hopen (c := 0x78) (by decide)
    (v := closing) (n := 22) (by decide +kernel)
  have hhead : closing.take 22 = closingHead := by decide +kernel
  rw [hhead] at hfind htake
  refine exists_item_of_readHead (readHead_eq_some_iff.mpr ⟨hfind, lineEnd, method, path, version,
    ?_, ?_, rfl⟩) ?_
  · rw [htake]
    exact Search.find_append_of_some hline _ (by decide)
  · rw [htake, List.take_append_of_le_length (by omega)]
    exact hparse
  · rw [htake, List.drop_append_of_le_length hle]
    exact contentLength_closing _ _

/-- A body within the limit can be completed. -/
theorem exists_item_body {headerEnd length : ℕ} {head : HttpRequest}
    (hhead : readHead s = some (headerEnd, head)) (hlength : contentLength head = .ok length)
    (hmax : length ≤ maxBodySize) :
    ∃ item rest, nextRequest (s ++ List.replicate length 0) = .item item rest := by
  have hend := (readHead_eq_some_iff.mp hhead).1
  have hle : headerEnd + 4 ≤ s.length := Search.add_length_le_of_find hend (by decide)
  refine exists_item_iff.mpr ⟨headerEnd, head, length, (readHead_append hend _).trans hhead,
    hlength, hmax, ?_⟩
  rw [List.length_append, List.length_replicate]
  omega

/-! ## Which requests can be completed -/

/-- Completing a request, in terms of the attempts to parse one. -/
theorem completable_iff (ctx : ConnectionHttpContext) :
    Completable ctx
      ↔ ∃ c, c ≠ [] ∧ ∃ item rest, nextRequest (ctx.buffer ++ c) = .item item rest := by
  unfold Completable
  simp only [parseHttpRequest_true_iff]

/-- **What is stuck cannot be completed.** -/
theorem Stuck.not_completable {ctx : ConnectionHttpContext} (h : Stuck ctx.buffer) :
    ¬ Completable ctx := by
  rw [completable_iff]
  rintro ⟨c, -, item, rest, hitem⟩
  rw [(h.append c).more] at hitem
  cases hitem

/-- What is neither parsed nor stuck can be completed. -/
theorem exists_item_of_not_stuck (hmore : nextRequest s = .more) (hstuck : ¬ Stuck s) :
    ∃ c, c ≠ [] ∧ ∃ item rest, nextRequest (s ++ c) = .item item rest := by
  cases hend : Search.find crlfcrlf s with
  | none =>
    cases hline : Search.find crlf s with
    | none => exact ⟨_, List.cons_ne_nil _ _, exists_item_firstLine hend hline⟩
    | some lineEnd =>
      cases hparse : parseRequestLine (s.take lineEnd) with
      | none => exact absurd (.requestLine hend hline hparse) hstuck
      | some p => exact ⟨_, List.cons_ne_nil _ _, exists_item_headers hend hline hparse⟩
  | some headerEnd =>
    cases hhead : readHead s with
    | none => exact absurd (.header hend hhead) hstuck
    | some p =>
      obtain ⟨headerEnd', head⟩ := p
      cases hlength : contentLength head with
      | error e =>
        have hfail := nextRequest_eq_fail_iff.mpr ⟨headerEnd', head, hhead, hlength⟩
        rw [hmore] at hfail
        cases hfail
      | ok length =>
        have hmax : length ≤ maxBodySize :=
          Nat.not_lt.mp fun hbig => hstuck (.body hhead hlength hbig)
        refine ⟨List.replicate length 0, ?_, exists_item_body hhead hlength hmax⟩
        intro hnil
        have hitem := exists_item_body hhead hlength hmax
        rw [hnil, List.append_nil, hmore] at hitem
        obtain ⟨item, rest, hitem⟩ := hitem
        cases hitem

/-- **Exactly when `false` means that more data are needed.** For every buffer, either the
parser does not return `false` on it or something can be appended that makes it succeed, if
and only if the buffer is not stuck. -/
theorem parseHttpRequest_incomplete_iff (ctx : ConnectionHttpContext) :
    (∀ ctx' req, parseHttpRequest ctx {} = .ok (false, ctx', req) → Completable ctx)
      ↔ ¬ Stuck ctx.buffer := by
  constructor
  · intro hcompletable hstuck
    obtain ⟨ctx', req, hp⟩ := (parseHttpRequest_false_iff ctx).mpr hstuck.more
    exact hstuck.not_completable (hcompletable ctx' req hp)
  · intro hstuck ctx' req hp
    have hmore := (parseHttpRequest_false_iff ctx).mp ⟨ctx', req, hp⟩
    exact (completable_iff ctx).mpr (exists_item_of_not_stuck hmore hstuck)

/-! ## Three requests that never come -/

/-- The parser waits for the rest of a request that nothing completes. -/
def NeverCompleted (buffer : Bytes) : Prop :=
  (∃ ctx req, parseHttpRequest { buffer } {} = .ok (false, ctx, req)) ∧ ¬ Completable { buffer }

theorem Stuck.neverCompleted (h : Stuck s) : NeverCompleted s :=
  ⟨(parseHttpRequest_false_iff { buffer := s }).mpr h.more, h.not_completable⟩

/-- A first line with one token, a header block without header lines, and a body of 11 MB. -/
theorem incomplete_for_ever :
    NeverCompleted (lit "x\r\n\r\n") ∧ NeverCompleted (lit "GET / HTTP/1.1\r\n\r\n")
      ∧ NeverCompleted (lit "POST / HTTP/1.1\r\nContent-Length: 11000000\r\nHost: x\r\n\r\n") := by
  have htokens : Stuck (lit "x\r\n\r\n") :=
    @Stuck.header _ 1 (by decide +kernel) (by decide +kernel)
  have hlines : Stuck (lit "GET / HTTP/1.1\r\n\r\n") :=
    @Stuck.header _ 14 (by decide +kernel) (by decide +kernel)
  have hbody : Stuck (lit "POST / HTTP/1.1\r\nContent-Length: 11000000\r\nHost: x\r\n\r\n") :=
    @Stuck.body _ 50 11000000
      { method := lit "POST", path := lit "/", version := lit "HTTP/1.1"
        headers := (∅ : StringMap).insert (lit "Content-Length") (lit "11000000") }
      (by decide +kernel) (by decide +kernel) (by decide +kernel)
  exact ⟨htokens.neverCompleted, hlines.neverCompleted, hbody.neverCompleted⟩
