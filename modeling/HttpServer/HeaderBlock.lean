import HttpServer.OnData

/-!
# Header blocks

What `ParseHttpRequest` makes of a buffer is decided by its header block, the bytes in
front of the first empty line: whether it can be read at all (`readHead`), which length it
announces for the body, and whether that many bytes are there. `nextRequest_eq` says so,
and `nextRequest_eq_fail_iff` and `nextRequest_eq_item_iff` say it of the two results that end
the wait for more data.
-/

/-- **Reading the header block** at the front of a buffer: its length, and the request that
its lines make up. There is none without an empty line, without a terminator behind the
request line, or without three tokens on it. -/
def readHead (s : Bytes) : Option (ℕ × HttpRequest) :=
  (Search.find crlfcrlf s).bind fun headerEnd =>
    (Search.find crlf (s.take headerEnd)).bind fun lineEnd =>
      (parseRequestLine ((s.take headerEnd).take lineEnd)).map fun (method, path, version) =>
        (headerEnd, parseHeaderLines ((s.take headerEnd).drop (lineEnd + 2))
          { method, path, version })

variable {s t : Bytes} {headerEnd length : ℕ} {head : HttpRequest}

theorem readHead_eq_some_iff :
    readHead s = some (headerEnd, head) ↔ Search.find crlfcrlf s = some headerEnd
      ∧ ∃ lineEnd method path version, Search.find crlf (s.take headerEnd) = some lineEnd
        ∧ parseRequestLine ((s.take headerEnd).take lineEnd) = some (method, path, version)
        ∧ head = parseHeaderLines ((s.take headerEnd).drop (lineEnd + 2))
          { method, path, version } := by
  unfold readHead
  simp only [Option.bind_eq_some_iff, Option.map_eq_some_iff, Prod.exists, Prod.mk.injEq]
  constructor
  · rintro ⟨_, hfind, lineEnd, hline, method, path, version, hparse, rfl, rfl⟩
    exact ⟨hfind, lineEnd, method, path, version, hline, hparse, rfl⟩
  · rintro ⟨hfind, lineEnd, method, path, version, hline, hparse, rfl⟩
    exact ⟨headerEnd, hfind, lineEnd, hline, method, path, version, hparse, rfl, rfl⟩

/-- **A header block that has been read stays as it is** when the buffer grows. -/
theorem readHead_append (hfind : Search.find crlfcrlf s = some headerEnd) (t : Bytes) :
    readHead (s ++ t) = readHead s := by
  have hend := Search.add_length_le_of_find hfind (by decide)
  have htake : (s ++ t).take headerEnd = s.take headerEnd :=
    List.take_append_of_le_length (by omega)
  simp only [readHead, Search.find_append_of_some hfind t (by decide), hfind, Option.bind_some,
    htake]

/-- Header lines change the headers only. -/
theorem exists_parseHeaderLine (req : HttpRequest) (line : Bytes) :
    ∃ headers, parseHeaderLine req line = { req with headers } := by
  unfold parseHeaderLine
  split
  · exact ⟨req.headers, rfl⟩
  · exact ⟨_, rfl⟩

theorem exists_parseHeaderLines (rest : Bytes) (req : HttpRequest) :
    ∃ headers, parseHeaderLines rest req = { req with headers } := by
  -- the loop goes on behind the line
  induction hn : rest.length using Nat.strongRecOn generalizing rest req with
  | _ n ih =>
    rw [parseHeaderLines]
    split
    · exact ⟨req.headers, rfl⟩
    · rename_i hnil
      split
      · exact ⟨req.headers, rfl⟩
      · rename_i lineEnd _
        have hpos := List.length_pos_of_ne_nil hnil
        obtain ⟨headers, hline⟩ := exists_parseHeaderLine req (rest.take lineEnd)
        obtain ⟨headers', hlines⟩ := ih _ (by rw [List.length_drop]; omega)
          (rest.drop (lineEnd + 2)) { req with headers } rfl
        exact ⟨headers', by rw [hline, hlines]⟩

/-- **What an attempt to parse a request comes to**, read off the header block. -/
theorem nextRequest_eq (s : Bytes) :
    nextRequest s = match readHead s with
      | none => .more
      | some (headerEnd, head) =>
        match contentLength head with
        | .error e => .fail e
        | .ok length =>
          if maxBodySize < length ∨ s.length < headerEnd + 4 + length then .more
          else
            let req := completeRequest head head.path length
              ((s.drop (headerEnd + 4)).take length)
            .item (req, keepAlive req head.version) (s.drop (headerEnd + 4 + length)) := by
  unfold nextRequest parseHttpRequest parseHeaderPart readHead
  cases Search.find crlfcrlf s with
  | none => rfl
  | some headerEnd =>
    simp only [Option.bind_some]
    cases Search.find crlf (s.take headerEnd) with
    | none => rfl
    | some lineEnd =>
      simp only [Option.bind_some]
      rcases parseRequestLine ((s.take headerEnd).take lineEnd) with - | ⟨method, path, version⟩
      · rfl
      · simp only [Option.map_some]
        obtain ⟨headers, hlines⟩ := exists_parseHeaderLines
          ((s.take headerEnd).drop (lineEnd + 2)) { method, path, version }
        rw [hlines]
        cases contentLength _ with
        | error e => rfl
        | ok length =>
          by_cases hbig : maxBodySize < length
          · simp only [if_pos hbig, if_pos (Or.inl hbig)]
          · by_cases hshort : s.length < headerEnd + 4 + length
            · simp only [if_neg hbig, if_pos hshort, if_pos (Or.inr hshort)]
            · have hfits : ¬ (maxBodySize < length ∨ s.length < headerEnd + 4 + length) :=
                not_or.mpr ⟨hbig, hshort⟩
              simp only [if_neg hbig, if_neg hshort, if_neg hfits]

/-- Parsing fails exactly at a length that cannot be read. -/
theorem nextRequest_eq_fail_iff {e : StdException} :
    nextRequest s = .fail e
      ↔ ∃ headerEnd head, readHead s = some (headerEnd, head) ∧ contentLength head = .error e := by
  rw [nextRequest_eq]
  rcases readHead s with - | ⟨headerEnd, head⟩
  · exact iff_of_false nofun nofun
  · simp only [Option.some.injEq, Prod.mk.injEq]
    constructor
    · intro hfail
      refine ⟨headerEnd, head, ⟨rfl, rfl⟩, ?_⟩
      cases hlength : contentLength head with
      | error e' =>
        rw [hlength] at hfail
        cases hfail
        rfl
      | ok length =>
        rw [hlength] at hfail
        dsimp only at hfail
        split at hfail <;> cases hfail
    · rintro ⟨_, _, ⟨rfl, rfl⟩, hlength⟩
      rw [hlength]

/-- **A request that is parsed**: its header block can be read, announces a length within the
limit, and as many bytes are there. -/
theorem nextRequest_eq_item_iff {req : HttpRequest} {keep : Bool} {rest : Bytes} :
    nextRequest s = .item (req, keep) rest
      ↔ ∃ headerEnd head length, readHead s = some (headerEnd, head)
        ∧ contentLength head = .ok length ∧ length ≤ maxBodySize
        ∧ headerEnd + 4 + length ≤ s.length
        ∧ req = completeRequest head head.path length ((s.drop (headerEnd + 4)).take length)
        ∧ keep = keepAlive req head.version
        ∧ rest = s.drop (headerEnd + 4 + length) := by
  rw [nextRequest_eq]
  rcases readHead s with - | ⟨headerEnd, head⟩
  · exact iff_of_false nofun nofun
  · simp only [Option.some.injEq, Prod.mk.injEq]
    constructor
    · intro hitem
      cases hlength : contentLength head with
      | error e =>
        rw [hlength] at hitem
        cases hitem
      | ok length =>
        rw [hlength] at hitem
        dsimp only at hitem
        split at hitem
        · cases hitem
        · rename_i hfits
          push Not at hfits
          cases hitem
          exact ⟨headerEnd, head, length, ⟨rfl, rfl⟩, hlength, hfits.1, hfits.2, rfl, rfl, rfl⟩
    · rintro ⟨_, _, length, ⟨rfl, rfl⟩, hlength, hmax, hfits, rfl, rfl, rfl⟩
      rw [hlength]
      dsimp only
      rw [if_neg (by omega)]

/-- Whether a request is parsed does not depend on what it is. -/
theorem exists_item_iff :
    (∃ item rest, nextRequest s = .item item rest)
      ↔ ∃ headerEnd head length, readHead s = some (headerEnd, head)
        ∧ contentLength head = .ok length ∧ length ≤ maxBodySize
        ∧ headerEnd + 4 + length ≤ s.length := by
  constructor
  · rintro ⟨⟨req, keep⟩, rest, hitem⟩
    obtain ⟨headerEnd, head, length, hhead, hlength, hmax, hfits, -⟩ :=
      nextRequest_eq_item_iff.mp hitem
    exact ⟨headerEnd, head, length, hhead, hlength, hmax, hfits⟩
  · rintro ⟨headerEnd, head, length, hhead, hlength, hmax, hfits⟩
    exact ⟨_, _, nextRequest_eq_item_iff.mpr
      ⟨headerEnd, head, length, hhead, hlength, hmax, hfits, rfl, rfl, rfl⟩⟩

/-- The length of the body of a request that has been parsed can be read. -/
theorem contentLength_of_item {req : HttpRequest} {keep : Bool} {rest : Bytes}
    (h : nextRequest s = .item (req, keep) rest) : ∃ length, contentLength req = .ok length := by
  obtain ⟨headerEnd, head, length, -, hlength, -, -, rfl, -⟩ := nextRequest_eq_item_iff.mp h
  refine ⟨length, ?_⟩
  rw [← hlength, contentLength, contentLength, HttpRequest.getHeader, completeRequest_headers,
    HttpRequest.getHeader]

/-! ## The look for an upgrade -/

/-- The header block spells the upgrade in one of the two ways that are looked for. -/
def NamesUpgrade (s : Bytes) : Prop :=
  ∃ headerEnd, Search.find crlfcrlf s = some headerEnd
    ∧ (Search.contains (lit "Upgrade: websocket") (s.take headerEnd)
      || Search.contains (lit "Upgrade: WebSocket") (s.take headerEnd)) = true

/-- **The buffer starts with an upgrade request**: its header block spells the upgrade, and
the request that is parsed from it asks for the upgrade. -/
def UpgradeAtFront (s : Bytes) (req : HttpRequest) : Prop :=
  NamesUpgrade s ∧ (∃ keep rest, nextRequest s = .item (req, keep) rest) ∧ AsksForUpgrade req

/-- There is no upgrade request where the parser throws. -/
theorem not_upgradeAtFront_of_fail {e : StdException} (h : nextRequest s = .fail e)
    (req : HttpRequest) : ¬ UpgradeAtFront s req := by
  rintro ⟨-, ⟨keep, rest, hitem⟩, -⟩
  rw [h] at hitem
  cases hitem

/-- **The look for an upgrade finds the request at the front of the buffer.** -/
theorem HttpProtocolHandler.upgradeRequest_eq_some_iff (ctx : ConnectionHttpContext)
    (req : HttpRequest) :
    upgradeRequest ctx = .ok (some req) ↔ UpgradeAtFront ctx.buffer req := by
  unfold UpgradeAtFront NamesUpgrade upgradeRequest
  cases hfind : Search.find crlfcrlf ctx.buffer with
  | none => exact iff_of_false (by simp) (by simp)
  | some headerEnd =>
    simp only [Option.some.injEq, exists_eq_left']
    split
    · rename_i hnames
      rw [and_iff_right hnames]
      cases hnext : nextRequest ctx.buffer with
      | more =>
        obtain ⟨req', hp⟩ := parseHttpRequest_of_more ctx hnext
        rw [hp]
        exact iff_of_false (by simp) (by simp)
      | fail e =>
        rw [parseHttpRequest_of_fail ctx hnext]
        exact iff_of_false (by simp) (by simp)
      | item item rest =>
        rw [parseHttpRequest_of_item ctx hnext]
        dsimp only
        split
        · rename_i hasks
          constructor
          · intro hreq
            cases hreq
            exact ⟨⟨item.2, rest, rfl⟩, hasks⟩
          · rintro ⟨⟨keep, rest', hitem⟩, -⟩
            cases hitem
            rfl
        · rename_i hasks
          refine iff_of_false (by simp) ?_
          rintro ⟨⟨keep, rest', hitem⟩, hasks'⟩
          cases hitem
          exact hasks hasks'
    · rename_i hnames
      exact iff_of_false (by simp) fun h => hnames h.1
