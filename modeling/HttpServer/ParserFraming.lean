import HttpServer.HttpParser
import HttpServer.SerialisedRequest

/-!
# Messages in a row

`HttpParser::Parse` on what a client sends: header blocks, each with the body that its
`Content-Length` announces. A caller that is to take one message after the other off its data
needs two things of the parser, that it waits for the body and that it returns where the message
ends. `Parse` does neither: what it returns is where the body begins. `parse_frames_iff` says what
is left of the promise, which is little more than the messages without a body.
-/

/-- The digits of a number, between blanks. -/
def IsDecimal (value : Bytes) (n : ℕ) : Prop :=
  ∃ front digits back, value = front ++ (digits ++ back)
    ∧ (∀ c ∈ front, isBlank c = true) ∧ (∀ c ∈ back, isBlank c = true)
    ∧ digits ≠ [] ∧ (∀ c ∈ digits, isDigit c = true) ∧ decimal digits = n

/-- **A well-formed header block**: the tokens of the request line, the header fields, as they
stand in front of and behind their colons, and the length of the body, which the fields with the
name `Content-Length`, in whatever case, announce; without such a field there is no body. -/
structure MessageHead where
  method : Bytes
  path : Bytes
  version : Bytes
  fields : List (Bytes × Bytes)
  length : ℕ
  method_isToken : IsToken method
  path_isToken : IsToken path
  version_isToken : IsToken version
  name_plain : ∀ f ∈ fields, 0x3A ∉ f.1 ∧ 0x0D ∉ f.1
  value_plain : ∀ f ∈ fields, 0x0D ∉ f.2
  length_lt : length < 2 ^ 64
  announced : ∀ f ∈ fields, HttpProtocolHandler.toLower f.1 = lit "content-length" →
    IsDecimal f.2 length
  unannounced : (∀ f ∈ fields, HttpProtocolHandler.toLower f.1 ≠ lit "content-length") →
    length = 0

/-- A message: a header block and a body of the length that it announces. -/
structure Message where
  head : MessageHead
  body : Bytes
  length_eq : body.length = head.length

/-! ## The length that is announced -/

theorem isDigit_of_isBlank {c : UInt8} (h : isBlank c = true) : isDigit c = false := by
  simp only [isBlank, Bool.or_eq_true, beq_iff_eq] at h
  rcases h with rfl | rfl <;> rfl

theorem isBlank_of_isDigit {c : UInt8} (h : isDigit c = true) : isBlank c = false := by
  cases hb : isBlank c with
  | false => rfl
  | true =>
    rw [isDigit_of_isBlank hb] at h
    cases h

/-- **The value of a length that is announced**: not empty, and read as the number. -/
theorem IsDecimal.stoul {value : Bytes} {n : ℕ} (h : IsDecimal value n) (hn : n < 2 ^ 64) :
    value.dropWhile isBlank ≠ [] ∧ stoul (value.dropWhile isBlank) = .ok n := by
  obtain ⟨front, digits, back, rfl, hfront, hback, hne, hdigits, rfl⟩ := h
  have hdrop : (front ++ (digits ++ back)).dropWhile isBlank = digits ++ back := by
    obtain ⟨c, digits, rfl⟩ := List.exists_cons_of_ne_nil hne
    have hc := isBlank_of_isDigit (hdigits c List.mem_cons_self)
    rw [List.dropWhile_append_of_pos hfront, List.cons_append,
      List.dropWhile_cons_of_neg (by simp [hc])]
  rw [hdrop]
  refine ⟨List.append_ne_nil_of_left_ne_nil hne _, stoul_append hne hdigits hn fun c hc => ?_⟩
  exact isDigit_of_isBlank (hback c (List.mem_of_mem_head? hc))

/-! ## The text of a message -/

namespace MessageHead

variable (m : MessageHead)

def requestLine : Bytes := m.method ++ lit " " ++ m.path ++ lit " " ++ m.version

/-- The header lines, without their terminators. -/
def lines : List Bytes := m.fields.map fun f => f.1 ++ lit ":" ++ f.2

/-- The header block without its last four bytes. -/
def part : Bytes := joinLines m.requestLine m.lines

/-- **The text of a header block.** -/
def text : Bytes := m.part ++ crlfcrlf

/-- The request without its body. -/
def request : HttpRequest where
  method := m.method
  path := m.path
  version := m.version
  headers := headersOf m.lines

theorem length_text : m.text.length = m.part.length + 4 := List.length_append

theorem cr_notMem_requestLine : 0x0D ∉ m.requestLine := by
  have hm := cr_notMem_of_isToken m.method_isToken
  have hp := cr_notMem_of_isToken m.path_isToken
  have hv := cr_notMem_of_isToken m.version_isToken
  have hs : (0x0D : UInt8) ∉ lit " " := by decide
  simp only [requestLine, List.mem_append]
  tauto

theorem cr_notMem_line {l : Bytes} (hl : l ∈ m.lines) : 0x0D ∉ l := by
  obtain ⟨f, hf, rfl⟩ := List.mem_map.mp hl
  have hn := (m.name_plain f hf).2
  have hv := m.value_plain f hf
  have hs : (0x0D : UInt8) ∉ lit ":" := by decide
  simp only [List.mem_append]
  tauto

theorem line_ne_nil {l : Bytes} (hl : l ∈ m.lines) : l ≠ [] := by
  obtain ⟨f, -, rfl⟩ := List.mem_map.mp hl
  simp [lit]

/-- The field of a header line of the block. -/
theorem headerField_line {f : Bytes × Bytes} (hf : f ∈ m.fields) :
    headerField (f.1 ++ lit ":" ++ f.2) = some (f.1, f.2.dropWhile isBlank) := by
  have hfind : Search.find (lit ":") (f.1 ++ (lit ":" ++ f.2)) = some f.1.length :=
    Search.find_append_pattern (c := 0x3A) (p := []) (m.name_plain f hf).1 f.2
  have hdrop : (f.1 ++ (lit ":" ++ f.2)).drop (f.1.length + 1) = f.2 := by
    rw [← List.drop_drop, List.drop_left]
    rfl
  rw [List.append_assoc, headerField, hfind, Option.map_some, List.take_left, hdrop]

/-- The headers of the block. -/
theorem headers_eq :
    headersOf m.lines = headerMap (m.fields.map fun f => (f.1, f.2.dropWhile isBlank)) := by
  unfold headersOf lines
  rw [List.filterMap_map]
  refine congrArg headerMap ?_
  rw [← List.filterMap_eq_map]
  exact List.filterMap_congr fun f hf => m.headerField_line hf

/-- **What the parser reads as the length.** The value of the field is there and is the length,
or there is no field of that very name. -/
theorem getHeader_contentLength :
    m.request.getHeader (lit "Content-Length") = []
      ∨ m.request.getHeader (lit "Content-Length") ≠ []
        ∧ stoul (m.request.getHeader (lit "Content-Length")) = .ok m.length := by
  unfold HttpRequest.getHeader request
  dsimp only
  rw [m.headers_eq]
  cases hvalue : (headerMap (m.fields.map fun f => (f.1, f.2.dropWhile isBlank))).lookup
      (lit "Content-Length") with
  | none => exact Or.inl rfl
  | some value =>
    obtain ⟨f, hf, he⟩ := List.mem_map.mp (mem_of_lookup_headerMap hvalue)
    obtain ⟨hname, rfl⟩ := Prod.mk.inj he
    have hlower : HttpProtocolHandler.toLower f.1 = lit "content-length" := by
      rw [hname]
      decide
    exact Or.inr ((m.announced f hf hlower).stoul m.length_lt)

end MessageHead

namespace Message

variable (m : Message)

def text : Bytes := m.head.text ++ m.body

/-- **The request that a message is**, with the form data of its body. -/
def request : HttpRequest :=
  let request := { m.head.request with body := m.body }
  if Search.contains (lit "application/x-www-form-urlencoded")
    (request.getHeader (lit "Content-Type"))
  then request.parseFormData else request

theorem length_text : m.text.length = m.head.text.length + m.head.length := by
  rw [text, List.length_append, m.length_eq]

end Message

/-! ## What the parser makes of it -/

namespace MessageHead

variable (m : MessageHead)

/-- Where the parser finds the two ends that it looks for, and what it finds in front of
them. -/
theorem find_text (t : Bytes) :
    Search.find crlf (m.text ++ t) = some m.requestLine.length
      ∧ (m.text ++ t).take m.requestLine.length = m.requestLine
      ∧ Search.find crlfcrlf (m.text ++ t) = some m.part.length := by
  -- behind the request line there is a terminator, be it that of the first line or the last one
  have hsplit : ∃ rest, m.text ++ t = m.requestLine ++ (crlf ++ rest) := by
    rw [text, part, joinLines]
    cases m.lines with
    | nil => exact ⟨crlf ++ t, by simp [crlfcrlf, crlf]⟩
    | cons l ls => exact ⟨l ++ ((ls.map fun l => crlf ++ l).flatten ++ (crlfcrlf ++ t)), by simp⟩
  obtain ⟨rest, hrest⟩ := hsplit
  refine ⟨?_, ?_, ?_⟩
  · rw [hrest]
    exact Search.find_append_pattern m.cr_notMem_requestLine rest
  · rw [hrest, List.take_left]
  · have hblock := find_crlfcrlf (fun l hl => m.cr_notMem_line hl) (fun l hl => m.line_ne_nil hl) t
    rw [text, part, joinLines, List.append_assoc, List.append_assoc, crlfcrlf,
      Search.find_append_of_notMem m.cr_notMem_requestLine]
    rw [crlfcrlf] at hblock
    rw [hblock, Option.map_some, List.length_append, Nat.add_comm]

/-- The header lines that the loop goes over. -/
theorem foldl_splitLines (req : HttpRequest) :
    (splitLines (m.part.drop (m.requestLine.length + 2))).foldl parseHeaderLine req
      = m.lines.foldl parseHeaderLine req := by
  rw [part, joinLines, ← List.drop_drop, List.drop_left]
  cases hlines : m.lines with
  | nil =>
    rw [List.map_nil, List.flatten_nil, List.drop_nil, splitLines_of_none rfl]
    rfl
  | cons l ls =>
    have hfind : ∀ x ∈ l :: ls, Search.find crlf x = none := fun x hx =>
      Search.find_eq_none_of_notMem (m.cr_notMem_line (by rwa [hlines]))
    have hdrop : ((l :: ls).map fun l => crlf ++ l).flatten.drop 2 = joinLines l ls := rfl
    rw [hdrop, splitLines_joinLines hfind]

end MessageHead

namespace HttpParser

variable (m : MessageHead)

/-- **What `Parse` makes of a header block**, whatever follows. -/
theorem parse_head (t : Bytes) :
    parse (m.text ++ t) {} = match parseBody (m.text ++ t) m.text.length m.request with
      | .error e => .error e
      | .ok request => .ok (toInt m.text.length, request) := by
  obtain ⟨hline, htake, hend⟩ := m.find_text t
  have htokens : parseRequestLine m.requestLine = some (m.method, m.path, m.version) :=
    parseRequestLine_tokens m.method_isToken m.path_isToken m.version_isToken
  have hheaders : ∀ req, parseHeaders (m.text ++ t) m.part.length (m.requestLine.length + 2) req
      = m.lines.foldl parseHeaderLine req := by
    intro req
    rw [MessageHead.text, List.append_assoc, parseHeaders_eq, m.foldl_splitLines]
  unfold parse
  rw [hline]
  dsimp only
  rw [htake, htokens, hend]
  dsimp only
  rw [hheaders, foldl_parseHeaderLine_eq _ rfl, ← m.length_text]
  rfl

/-- The body of a header block is looked at without an exception; where no body is announced,
nothing comes of it. -/
theorem parseBody_head (t : Bytes) :
    ∃ request, parseBody (m.text ++ t) m.text.length m.request = .ok request
      ∧ (m.length = 0 → request = m.request) := by
  rcases m.getHeader_contentLength with hnil | ⟨hne, hvalue⟩
  · have hzero : contentLength m.request = .ok 0 := by
      rw [contentLength, hnil]
      rfl
    exact ⟨m.request, parseBody_of_noBody _ _ rfl rfl hzero, fun _ => rfl⟩
  · have hlength : contentLength m.request = .ok m.length := by
      rw [contentLength, if_neg (by simp [hne]), hvalue]
    by_cases h0 : m.length = 0
    · rw [h0] at hlength
      exact ⟨m.request, parseBody_of_noBody _ _ rfl rfl hlength, fun _ => rfl⟩
    · have hgo : ¬ (m.request.getHeader (lit "Content-Length")).isEmpty = true :=
        hne ∘ List.isEmpty_iff.mp
      unfold parseBody
      dsimp only
      rw [if_neg hgo, hvalue]
      dsimp only
      split_ifs <;> exact ⟨_, rfl, fun h => absurd h h0⟩

/-! ## One message -/

/-- **The message at the front is framed**: while its body is not there, `Parse` returns zero,
and then the length of the message, with the body in the request. -/
def FramesFront (t : Bytes) : Prop :=
  ∃ n request, parse (m.text ++ t) {} = .ok (n, request)
    ∧ if t.length < m.length then n = 0
      else n = ((m.text.length + m.length : ℕ) : ℤ) ∧ request.body = t.take m.length

theorem toInt_eq_zero_iff (n : ℕ) : toInt n = 0 ↔ 2 ^ 32 ∣ n :=
  Int.dvd_iff_bmod_eq_zero.symm.trans Int.natCast_dvd_natCast

/-- **When the message at the front is framed.** -/
theorem framesFront_iff (t : Bytes) :
    FramesFront m t
      ↔ m.length = 0 ∧ m.text.length < 2 ^ 31 ∨ t.length < m.length ∧ 2 ^ 32 ∣ m.text.length := by
  obtain ⟨request, hbody, hzero⟩ := parseBody_head m t
  have hparse := parse_head m t
  rw [hbody] at hparse
  have hfront : FramesFront m t ↔ if t.length < m.length then toInt m.text.length = 0
      else toInt m.text.length = ((m.text.length + m.length : ℕ) : ℤ)
        ∧ request.body = t.take m.length := by
    constructor
    · rintro ⟨n, request', h, hframes⟩
      rw [hparse] at h
      obtain ⟨rfl, rfl⟩ := Prod.mk.inj (Except.ok.inj h)
      exact hframes
    · intro h
      exact ⟨_, _, hparse, h⟩
  rw [hfront]
  by_cases hlt : t.length < m.length
  · have hpos : m.length ≠ 0 := by omega
    rw [if_pos hlt, toInt_eq_zero_iff]
    exact ⟨fun h => Or.inr ⟨hlt, h⟩, fun h => (h.resolve_left fun h0 => hpos h0.1).2⟩
  · rw [if_neg hlt, toInt_eq_add_iff]
    constructor
    · rintro ⟨h, -⟩
      exact Or.inl h
    · intro h
      have h0 := h.resolve_right fun hmore => hlt hmore.1
      refine ⟨h0, ?_⟩
      rw [hzero h0.1, h0.1, List.take_zero]
      rfl

/-! ## Messages in a row -/

/-- What a caller gets who parses what is there, drops as many bytes as it is told, and goes on,
as long as there is a request. -/
def parseAll (s : Bytes) : List (ℤ × HttpRequest) :=
  if hs : s = [] then []
  else
    match parse s {} with
    | .error _ => []
    | .ok (n, request) =>
      if hn : 0 < n then
        have : (s.drop n.toNat).length < s.length := by
          have hpos := List.length_pos_iff.mpr hs
          rw [List.length_drop]
          omega
        (n, request) :: parseAll (s.drop n.toNat)
      else []
termination_by s.length

/-- **The messages in a row are framed**: the caller gets the requests of all of them, each
with the length of its message. -/
def FramesAll (ms : List Message) : Prop :=
  parseAll (ms.map Message.text).flatten = ms.map fun m => ((m.text.length : ℤ), m.request)

/-- A request without a body is what the parser makes of its header block. -/
theorem request_of_noBody {m : Message} (h : m.head.length = 0) : m.request = m.head.request := by
  have hbody : m.body = [] := List.length_eq_zero_iff.mp (m.length_eq.trans h)
  have hform : m.head.request.parseFormData = m.head.request :=
    HttpRequest.parseFormData_of_nil rfl rfl
  have hself : { m.head.request with body := [] } = m.head.request := rfl
  unfold Message.request
  rw [hbody, hself]
  dsimp only
  rw [hform, ite_self]

/-- The first message that a caller gets, and what is left to parse. -/
theorem parseAll_cons (m : Message) (t : Bytes) :
    ∃ request, parseAll (m.text ++ t)
        = (if 0 < toInt m.head.text.length then
            (toInt m.head.text.length, request)
              :: parseAll ((m.text ++ t).drop (toInt m.head.text.length).toNat)
          else [])
      ∧ (m.head.length = 0 → request = m.request) := by
  obtain ⟨request, hbody, hzero⟩ := parseBody_head m.head (m.body ++ t)
  have hparse := parse_head m.head (m.body ++ t)
  rw [hbody, ← List.append_assoc] at hparse
  have hne : m.head.text ++ m.body ++ t ≠ [] := by
    rw [MessageHead.text]
    simp [crlfcrlf]
  refine ⟨request, ?_, fun h0 => by rw [hzero h0, request_of_noBody h0]⟩
  rw [Message.text, parseAll, dif_neg hne, hparse]
  dsimp only
  split_ifs
  · rfl
  · rfl

/-- **When messages in a row are framed.** -/
theorem framesAll_iff (ms : List Message) :
    FramesAll ms ↔ ∀ m ∈ ms, m.head.length = 0 ∧ m.head.text.length < 2 ^ 31 := by
  unfold FramesAll
  induction ms with
  | nil => exact iff_of_true (by rw [parseAll]; rfl) nofun
  | cons m ms ih =>
    obtain ⟨request, hall, hzero⟩ := parseAll_cons m (ms.map Message.text).flatten
    rw [List.map_cons, List.flatten_cons, hall, List.map_cons, List.forall_mem_cons, ← ih]
    constructor
    · intro h
      by_cases hpos : 0 < toInt m.head.text.length
      · rw [if_pos hpos] at h
        obtain ⟨hfirst, hrest⟩ := List.cons.inj h
        have hlength := (Prod.mk.inj hfirst).1
        rw [m.length_text] at hlength
        have h0 := (toInt_eq_add_iff _ _).mp hlength
        rw [hlength, Int.toNat_natCast, ← m.length_text, List.drop_left] at hrest
        exact ⟨h0, hrest⟩
      · rw [if_neg hpos] at h
        cases h
    · rintro ⟨h0, hrest⟩
      have hlength := (toInt_eq_add_iff _ _).mpr h0
      rw [← m.length_text] at hlength
      have hpos : 0 < m.text.length := by
        rw [m.length_text, m.head.length_text]
        omega
      rw [hlength, if_pos (by omega), Int.toNat_natCast, List.drop_left, hrest, hzero h0.1]

/-- **How far `Parse` frames messages.** The message at the front of the data is framed exactly
if it has no body and its header block is shorter than `2 ^ 31` bytes, or if its body is not there
yet and the length of its header block happens to be zero as an `int`; messages in a row are framed
exactly if all of them are without a body and have a header block that is shorter than this. -/
theorem parse_frames_iff (m : MessageHead) (t : Bytes) (ms : List Message) :
    (FramesFront m t
      ↔ m.length = 0 ∧ m.text.length < 2 ^ 31 ∨ t.length < m.length ∧ 2 ^ 32 ∣ m.text.length)
    ∧ (FramesAll ms ↔ ∀ m ∈ ms, m.head.length = 0 ∧ m.head.text.length < 2 ^ 31) :=
  ⟨framesFront_iff m t, framesAll_iff ms⟩

theorem isToken_root : IsToken (lit "/") := isToken_of_all (by decide) rfl

theorem isToken_version : IsToken (lit "HTTP/1.1") := isToken_of_all (by decide) rfl

/-- A request with a body of one byte. -/
def postHead : MessageHead where
  method := lit "POST"
  path := lit "/"
  version := lit "HTTP/1.1"
  fields := [(lit "Content-Length", lit " 1")]
  length := 1
  method_isToken := isToken_of_all (by decide) rfl
  path_isToken := isToken_root
  version_isToken := isToken_version
  name_plain := by decide
  value_plain := by decide
  length_lt := by decide
  announced := by
    intro f hf _
    obtain rfl := List.mem_singleton.mp hf
    exact ⟨lit " ", lit "1", [], by decide +kernel⟩
  unannounced := fun h => absurd (h _ List.mem_cons_self) (by decide)

/-- That message twice. -/
def postTwice : List Message := [⟨postHead, lit "x", by decide⟩, ⟨postHead, lit "y", by decide⟩]

/-- **The second of two requests comes out wrong**, and the first one is not framed while its
body is missing, nor when it is there. -/
theorem parse_not_frames :
    (parseAll (postTwice.map Message.text).flatten).map Prod.snd ≠ postTwice.map Message.request
      ∧ ¬ FramesFront postHead [] ∧ ¬ FramesFront postHead (lit "x") := by
  have hlength : postHead.text.length = 38 := by decide
  refine ⟨?_, ?_, ?_⟩
  · decide +kernel
  · rw [framesFront_iff, hlength]
    decide
  · rw [framesFront_iff, hlength]
    decide

end HttpParser
