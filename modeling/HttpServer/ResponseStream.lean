import HttpServer.Consumer
import HttpServer.HttpParser
import HttpServer.SerialisedRequest

/-!
# Responses that delimit themselves

The responses that go out over one connection stand one behind the other. A client takes them
apart again: it reads up to the first empty line, and then as many bytes as `Content-Length`
announces (`responseDecoder`). Bodies are arbitrary bytes, and nothing is known about the order
of the headers.

`nextResponse_toString` says that one response in front of anything is read as it was made, and
nothing behind it. That it is read the same whatever follows makes the client a decoder, so it
makes no difference how the stream was cut into chunks.
-/

/-! ## The client -/

/-- What a client learns from a response. -/
structure ClientReply where
  statusCode : ℤ
  headers : StringMap
  body : Bytes
  deriving DecidableEq

namespace ResponseClient

/-- A number that is written in decimal digits. -/
def readNat (s : Bytes) : Option ℕ :=
  if s ≠ [] ∧ s.all isDigit then some (decimal s) else none

/-- A number with its sign. -/
def readInt : Bytes → Option ℤ
  | 0x2D :: s => (readNat s).map fun n => -(n : ℤ)
  | s => (readNat s).map fun n => (n : ℤ)

/-- The code of a status line: what stands between the version and the next blank. -/
def readStatusLine (line : Bytes) : Option ℤ :=
  if lit "HTTP/1.1 " <+: line then
    (Search.find (lit " ") (line.drop 9)).bind fun codeEnd =>
      readInt ((line.drop 9).take codeEnd)
  else none

/-- The name and the value of a header line. -/
def readField (line : Bytes) : Option (Bytes × Bytes) :=
  (Search.find (lit ": ") line).map fun i => (line.take i, line.drop (i + 2))

/-- What stands in front of the empty line: the status code, the headers, and the length of the
body. -/
def readHead (head : Bytes) : Option (ℤ × StringMap × ℕ) :=
  match splitLines head with
  | [] => none
  | line :: lines =>
    let headers := headerMap (lines.filterMap readField)
    (readStatusLine line).bind fun statusCode =>
      ((headers.lookup (lit "Content-Length")).bind readNat).map fun length =>
        (statusCode, headers.erase (lit "Content-Length"), length)

/-- **The next response of a stream.** -/
def nextResponse (s : Bytes) : Consumer.Attempt UInt8 ClientReply Unit :=
  match Search.find crlfcrlf s with
  | none => .more
  | some headEnd =>
    match readHead (s.take headEnd) with
    | none => .fail ()
    | some (statusCode, headers, length) =>
      if s.length < headEnd + 4 + length then .more
      else .item ⟨statusCode, headers, (s.drop (headEnd + 4)).take length⟩
        (s.drop (headEnd + 4 + length))

variable {s t : Bytes} {reply : ClientReply}

/-- What a response that is read consists of. -/
theorem nextResponse_eq_item_iff :
    nextResponse s = .item reply t
      ↔ ∃ headEnd length, Search.find crlfcrlf s = some headEnd
        ∧ readHead (s.take headEnd) = some (reply.statusCode, reply.headers, length)
        ∧ headEnd + 4 + length ≤ s.length
        ∧ reply.body = (s.drop (headEnd + 4)).take length
        ∧ t = s.drop (headEnd + 4 + length) := by
  unfold nextResponse
  cases hfind : Search.find crlfcrlf s with
  | none => exact iff_of_false nofun (by rintro ⟨_, _, hsome, -⟩; cases hsome)
  | some headEnd =>
    dsimp only
    cases hhead : readHead (s.take headEnd) with
    | none =>
      refine iff_of_false nofun ?_
      rintro ⟨headEnd', length, hsome, hread, -⟩
      cases hsome
      rw [hhead] at hread
      cases hread
    | some head =>
      obtain ⟨statusCode, headers, length⟩ := head
      dsimp only
      constructor
      · intro hitem
        split at hitem
        · cases hitem
        · rename_i hfits
          cases hitem
          exact ⟨headEnd, length, rfl, hhead, Nat.not_lt.mp hfits, rfl, rfl⟩
      · rintro ⟨headEnd', length', hsome, hread, hfits, hbody, rfl⟩
        cases hsome
        rw [hhead] at hread
        cases hread
        rw [if_neg (Nat.not_lt.mpr hfits), ← hbody]

theorem nextResponse_eq_fail_iff :
    nextResponse s = .fail ()
      ↔ ∃ headEnd, Search.find crlfcrlf s = some headEnd ∧ readHead (s.take headEnd) = none := by
  unfold nextResponse
  cases hfind : Search.find crlfcrlf s with
  | none => exact iff_of_false nofun (by rintro ⟨_, hsome, -⟩; cases hsome)
  | some headEnd =>
    dsimp only
    cases hhead : readHead (s.take headEnd) with
    | none => exact iff_of_true rfl ⟨headEnd, rfl, hhead⟩
    | some head =>
      obtain ⟨statusCode, headers, length⟩ := head
      refine iff_of_false ?_ ?_
      · dsimp only
        split <;> exact nofun
      · rintro ⟨headEnd', hsome, hread⟩
        cases hsome
        rw [hhead] at hread
        cases hread

/-- The head of a response stays what it is when the stream goes on. -/
theorem take_append_of_find {headEnd : ℕ} (hfind : Search.find crlfcrlf s = some headEnd)
    (t : Bytes) : Search.find crlfcrlf (s ++ t) = some headEnd
      ∧ (s ++ t).take headEnd = s.take headEnd := by
  have hend := Search.add_length_le_of_find hfind (by decide)
  exact ⟨Search.find_append_of_some hfind t (by decide),
    List.take_append_of_le_length (by omega)⟩

/-- **The client as a decoder.** -/
def responseDecoder : Consumer.Decoder UInt8 ClientReply Unit where
  next := nextResponse
  next_nil := rfl
  length_lt {s reply rest} h := by
    obtain ⟨headEnd, length, -, -, hfits, -, rfl⟩ := nextResponse_eq_item_iff.mp h
    rw [List.length_drop]
    omega
  item_append {s reply rest} h t := by
    obtain ⟨headEnd, length, hfind, hread, hfits, hbody, rfl⟩ := nextResponse_eq_item_iff.mp h
    obtain ⟨hfind', htake⟩ := take_append_of_find hfind t
    refine nextResponse_eq_item_iff.mpr ⟨headEnd, length, hfind', by rw [htake, hread], ?_, ?_, ?_⟩
    · rw [List.length_append]
      omega
    · rw [List.drop_append_of_le_length (by omega),
        List.take_append_of_le_length (by rw [List.length_drop]; omega), hbody]
    · rw [List.drop_append_of_le_length (by omega)]
  fail_append {s e} h t := by
    obtain ⟨headEnd, hfind, hread⟩ := nextResponse_eq_fail_iff.mp h
    obtain ⟨hfind', htake⟩ := take_append_of_find hfind t
    exact nextResponse_eq_fail_iff.mpr ⟨headEnd, hfind', by rw [htake, hread]⟩

@[simp] theorem responseDecoder_next (s : Bytes) : responseDecoder.next s = nextResponse s := rfl

/-- A client that takes every response. -/
def accept (_ : ClientReply) (_ : Unit) : Consumer.Verdict Unit × Unit := (.goOn, ())

end ResponseClient

/-! ## The text of a response -/

namespace HttpResponse

/-- **What callers keep to**: no line break in the status message, in a name or in a value, no
colon in a name, and no header in place of the length that `ToString` writes. -/
structure Clean (resp : HttpResponse) : Prop where
  message_noBreak : 0x0D ∉ resp.statusMessage ∧ 0x0A ∉ resp.statusMessage
  name_noSeparator : ∀ name ∈ resp.headers, 0x3A ∉ name ∧ 0x0D ∉ name ∧ 0x0A ∉ name
  name_ne : lit "Content-Length" ∉ resp.headers
  value_noBreak : ∀ name value, resp.headers.lookup name = some value →
    0x0D ∉ value ∧ 0x0A ∉ value

/-- What the client should learn from a response. -/
def reply (resp : HttpResponse) : ClientReply := ⟨resp.statusCode, resp.headers, resp.body⟩

/-- A new response is clean. -/
theorem clean_default : ({} : HttpResponse).Clean where
  message_noBreak := by decide
  name_noSeparator := nofun
  name_ne := nofun
  value_noBreak := nofun

variable {resp : HttpResponse}

theorem Clean.setStatus (h : resp.Clean) (code : ℤ) {message : Bytes}
    (hmessage : 0x0D ∉ message ∧ 0x0A ∉ message) : (resp.setStatus code message).Clean where
  message_noBreak := by
    show 0x0D ∉ (if message.isEmpty then getDefaultMessage code else message)
      ∧ 0x0A ∉ (if message.isEmpty then getDefaultMessage code else message)
    split
    · unfold getDefaultMessage
      repeat' split
      all_goals decide
    · exact hmessage
  name_noSeparator := h.name_noSeparator
  name_ne := h.name_ne
  value_noBreak := h.value_noBreak

theorem Clean.setBody (h : resp.Clean) (body : Bytes) : (resp.setBody body).Clean where
  message_noBreak := h.message_noBreak
  name_noSeparator := h.name_noSeparator
  name_ne := h.name_ne
  value_noBreak := h.value_noBreak

theorem Clean.addHeader (h : resp.Clean) {name value : Bytes}
    (hname : 0x3A ∉ name ∧ 0x0D ∉ name ∧ 0x0A ∉ name) (hne : name ≠ lit "Content-Length")
    (hvalue : 0x0D ∉ value ∧ 0x0A ∉ value) : (resp.addHeader name value).Clean where
  message_noBreak := h.message_noBreak
  name_noSeparator other hother := by
    rcases Finmap.mem_insert.mp hother with rfl | hold
    · exact hname
    · exact h.name_noSeparator other hold
  name_ne hlength := by
    rcases Finmap.mem_insert.mp hlength with heq | hold
    · exact hne heq.symm
    · exact h.name_ne hold
  value_noBreak other v hv := by
    by_cases heq : other = name
    · subst heq
      rw [HttpResponse.addHeader, Finmap.lookup_insert] at hv
      cases hv
      exact hvalue
    · rw [HttpResponse.addHeader, Finmap.lookup_insert_of_ne _ heq] at hv
      exact h.value_noBreak other v hv

theorem Clean.setContentType (h : resp.Clean) {type : Bytes}
    (htype : 0x0D ∉ type ∧ 0x0A ∉ type) : (resp.setContentType type).Clean :=
  h.addHeader (by decide) (by decide) htype

/-- The status line, without its terminator. -/
def statusLine (resp : HttpResponse) : Bytes :=
  lit "HTTP/1.1 " ++ intToDecimal resp.statusCode ++ lit " " ++ resp.statusMessage

/-- The headers that are written, in order. -/
def fields (order : IterationOrder) (resp : HttpResponse) : List (Bytes × Bytes) :=
  (order.entries resp.headers).entries.map fun e => (e.1, e.2)

/-- The header lines, without their terminators. -/
def headLines (order : IterationOrder) (resp : HttpResponse) : List Bytes :=
  (resp.fields order ++ [(lit "Content-Length", toDecimal resp.body.length)]).map headerLine

variable (order : IterationOrder)

/-- **The text of a response, split where the client splits it.** -/
theorem toString_eq (resp : HttpResponse) :
    resp.toString order
      = joinLines resp.statusLine (resp.headLines order) ++ (crlfcrlf ++ resp.body) := by
  have hmove := crlf_append_flatten (resp.headLines order)
  have hlines : ((resp.headLines order).map fun l => l ++ crlf).flatten
      = ((order.entries resp.headers).entries.map fun e => e.1 ++ lit ": " ++ e.2 ++ crlf).flatten
        ++ (lit "Content-Length: " ++ toDecimal resp.body.length ++ crlf) := by
    rw [headLines, fields, List.map_append, List.map_append, List.flatten_append, List.map_map,
      List.map_map]
    have hlength : lit "Content-Length" ++ lit ": " = lit "Content-Length: " := rfl
    simp only [List.map_cons, List.map_nil, List.flatten_cons, List.flatten_nil, List.append_nil,
      headerLine, hlength]
    rfl
  have hfour : crlfcrlf = crlf ++ crlf := rfl
  calc resp.toString order
      = resp.statusLine ++ (crlf ++ ((resp.headLines order).map fun l => l ++ crlf).flatten)
        ++ (crlf ++ resp.body) := by
        rw [hlines]
        simp only [HttpResponse.toString, statusLine, List.append_assoc]
    _ = joinLines resp.statusLine (resp.headLines order) ++ (crlfcrlf ++ resp.body) := by
        rw [hmove, hfour, joinLines]
        simp only [List.append_assoc]

end HttpResponse

/-! ## Reading it back -/

namespace ResponseClient

theorem readNat_toDecimal (n : ℕ) : readNat (toDecimal n) = some n := by
  have hdigits : (toDecimal n).all isDigit :=
    List.all_eq_true.mpr fun c => isDigit_of_mem_toDecimal
  rw [readNat, if_pos ⟨toDecimal_ne_nil n, hdigits⟩, decimal_toDecimal]

theorem mem_intToDecimal {n : ℤ} {c : UInt8} (hc : c ∈ intToDecimal n) :
    isDigit c = true ∨ c = 0x2D := by
  cases n with
  | ofNat n => exact .inl (isDigit_of_mem_toDecimal hc)
  | negSucc n =>
    rcases List.mem_cons.mp hc with rfl | hc
    · exact .inr rfl
    · exact .inl (isDigit_of_mem_toDecimal hc)

/-- **A status code is read back.** -/
theorem readInt_intToDecimal (n : ℤ) : readInt (intToDecimal n) = some n := by
  cases n with
  | ofNat n =>
    show readInt (toDecimal n) = _
    unfold readInt
    split
    · rename_i hminus
      have hdigit : isDigit 0x2D = true :=
        isDigit_of_mem_toDecimal (n := n) (by rw [hminus]; exact List.mem_cons_self)
      cases hdigit
    · rw [readNat_toDecimal]
      rfl
  | negSucc n =>
    show readInt (0x2D :: toDecimal (n + 1)) = _
    rw [readInt, readNat_toDecimal]
    rfl

theorem readStatusLine_statusLine (resp : HttpResponse) :
    readStatusLine resp.statusLine = some resp.statusCode := by
  have hpre : lit "HTTP/1.1 " <+: resp.statusLine := by
    simp only [HttpResponse.statusLine, List.append_assoc]
    exact List.prefix_append _ _
  have hdrop : resp.statusLine.drop 9
      = intToDecimal resp.statusCode ++ (lit " " ++ resp.statusMessage) := by
    simp only [HttpResponse.statusLine, List.append_assoc]
    rfl
  have hblank : (0x20 : UInt8) ∉ intToDecimal resp.statusCode := by
    intro hmem
    rcases mem_intToDecimal hmem with hdigit | hminus
    · cases hdigit
    · cases hminus
  have hfind : Search.find (lit " ") (intToDecimal resp.statusCode
      ++ (lit " " ++ resp.statusMessage)) = some (intToDecimal resp.statusCode).length :=
    Search.find_append_pattern hblank resp.statusMessage
  rw [readStatusLine, if_pos hpre, hdrop, hfind, Option.bind_some, List.take_left,
    readInt_intToDecimal]

/-- A header line is read back, whatever its value is. -/
theorem readField_headerLine {h : Bytes × Bytes} (hname : 0x3A ∉ h.1) :
    readField (headerLine h) = some h := by
  have hline : headerLine h = h.1 ++ (lit ": " ++ h.2) := by
    rw [headerLine, List.append_assoc]
  have hfind : Search.find (lit ": ") (h.1 ++ (lit ": " ++ h.2)) = some h.1.length :=
    Search.find_append_pattern hname h.2
  rw [readField, hline, hfind, Option.map_some, List.take_left, ← List.drop_drop, List.drop_left]
  rfl

/-- All header lines are read back. -/
theorem filterMap_readField {headers : List (Bytes × Bytes)} (hname : ∀ h ∈ headers, 0x3A ∉ h.1) :
    (headers.map headerLine).filterMap readField = headers := by
  induction headers with
  | nil => rfl
  | cons h headers ih =>
    rw [List.map_cons, List.filterMap_cons_some
      (readField_headerLine (hname h List.mem_cons_self)),
      ih fun h' hmem => hname h' (List.mem_cons_of_mem _ hmem)]

end ResponseClient

namespace HttpResponse

variable {resp : HttpResponse} (order : IterationOrder)

/-- The headers that are written are those of the response. -/
theorem mem_fields {h : Bytes × Bytes} :
    h ∈ resp.fields order ↔ resp.headers.lookup h.1 = some h.2 := by
  have hlookup : resp.headers.lookup h.1 = (order.entries resp.headers).lookup h.1 := by
    rw [← Finmap.lookup_toFinmap, order.toFinmap_entries]
  rw [hlookup, ← Option.mem_def, AList.mem_lookup_iff, fields, List.mem_map]
  constructor
  · rintro ⟨e, he, rfl⟩
    exact he
  · intro he
    exact ⟨_, he, rfl⟩

theorem keys_fields : (resp.fields order).map Prod.fst = (order.entries resp.headers).keys := by
  rw [fields, List.map_map]
  rfl

/-- **Their map is the map they came from**, whatever the order. -/
theorem headerMap_fields : headerMap (resp.fields order) = resp.headers := by
  refine Finmap.ext_lookup fun name => ?_
  cases hvalue : resp.headers.lookup name with
  | some value =>
    have hnodup : ((resp.fields order).map Prod.fst).Nodup := by
      rw [keys_fields]
      exact (order.entries resp.headers).keys_nodup
    exact lookup_headerMap hnodup ((mem_fields order (h := (name, value))).mpr hvalue)
  | none =>
    refine lookup_headerMap_of_notMem fun hmem => ?_
    obtain ⟨h, hh, rfl⟩ := List.mem_map.mp hmem
    rw [(mem_fields order).mp hh] at hvalue
    cases hvalue

theorem mem_headers_of_mem_fields {h : Bytes × Bytes} (hmem : h ∈ resp.fields order) :
    h.1 ∈ resp.headers :=
  Finmap.lookup_isSome.mp (by rw [(mem_fields order).mp hmem]; rfl)

/-- No carriage return stands in a header line, and no header line is empty. -/
theorem Clean.cr_notMem_headLines (hclean : resp.Clean) {line : Bytes}
    (hline : line ∈ resp.headLines order) : 0x0D ∉ line ∧ line ≠ [] := by
  have hsep : (0x0D : UInt8) ∉ lit ": " := by decide
  obtain ⟨h, hmem, rfl⟩ := List.mem_map.mp hline
  have hparts : 0x0D ∉ h.1 ∧ 0x0D ∉ h.2 := by
    rcases List.mem_append.mp hmem with hfield | hlength
    · exact ⟨(hclean.name_noSeparator _ (mem_headers_of_mem_fields order hfield)).2.1,
        (hclean.value_noBreak _ _ ((mem_fields order).mp hfield)).1⟩
    · rw [List.mem_singleton.mp hlength]
      refine ⟨show (0x0D : UInt8) ∉ lit "Content-Length" by decide, fun hcr => ?_⟩
      have hdigit := isDigit_of_mem_toDecimal hcr
      cases hdigit
  constructor
  · simp only [headerLine, List.mem_append]
    tauto
  · simp [headerLine, lit]

theorem Clean.cr_notMem_statusLine (hclean : resp.Clean) : 0x0D ∉ resp.statusLine := by
  have hversion : (0x0D : UInt8) ∉ lit "HTTP/1.1 " := by decide
  have hblank : (0x0D : UInt8) ∉ lit " " := by decide
  have hcode : (0x0D : UInt8) ∉ intToDecimal resp.statusCode := by
    intro hmem
    rcases ResponseClient.mem_intToDecimal hmem with hdigit | hminus
    · cases hdigit
    · cases hminus
  have hmessage := hclean.message_noBreak.1
  simp only [statusLine, List.mem_append]
  tauto

/-- **The client reads the head of a clean response.** -/
theorem Clean.readHead_eq (hclean : resp.Clean) :
    ResponseClient.readHead (joinLines resp.statusLine (resp.headLines order))
      = some (resp.statusCode, resp.headers, resp.body.length) := by
  have hlines : splitLines (joinLines resp.statusLine (resp.headLines order))
      = resp.statusLine :: resp.headLines order := by
    refine splitLines_joinLines fun line hline => ?_
    rcases List.mem_cons.mp hline with rfl | hline
    · exact Search.find_eq_none_of_notMem hclean.cr_notMem_statusLine
    · exact Search.find_eq_none_of_notMem (hclean.cr_notMem_headLines order hline).1
  have hfields : (resp.headLines order).filterMap ResponseClient.readField
      = resp.fields order ++ [(lit "Content-Length", toDecimal resp.body.length)] := by
    refine ResponseClient.filterMap_readField fun h hmem => ?_
    rcases List.mem_append.mp hmem with hfield | hlength
    · exact (hclean.name_noSeparator _ (mem_headers_of_mem_fields order hfield)).1
    · rw [List.mem_singleton.mp hlength]
      show (0x3A : UInt8) ∉ lit "Content-Length"
      decide
  have herase : (resp.headers.insert (lit "Content-Length") (toDecimal resp.body.length)).erase
      (lit "Content-Length") = resp.headers := by
    refine Finmap.ext_lookup fun name => ?_
    by_cases hname : name = lit "Content-Length"
    · rw [hname, Finmap.lookup_erase, Finmap.lookup_eq_none.mpr hclean.name_ne]
    · rw [Finmap.lookup_erase_ne hname, Finmap.lookup_insert_of_ne _ hname]
  unfold ResponseClient.readHead
  rw [hlines]
  dsimp only
  rw [hfields, headerMap_append, headerMap_fields, ResponseClient.readStatusLine_statusLine,
    Finmap.lookup_insert, Option.bind_some, Option.bind_some, ResponseClient.readNat_toDecimal,
    Option.map_some, herase]

/-- **One response is read as it was made**, and nothing of what stands behind it. -/
theorem Clean.nextResponse_toString (hclean : resp.Clean) (rest : Bytes) :
    ResponseClient.nextResponse (resp.toString order ++ rest) = .item resp.reply rest := by
  set head := joinLines resp.statusLine (resp.headLines order) with hhead
  have htext : resp.toString order ++ rest = head ++ (crlfcrlf ++ (resp.body ++ rest)) := by
    rw [toString_eq]
    simp only [List.append_assoc, hhead]
  have hfind : Search.find crlfcrlf (head ++ (crlfcrlf ++ (resp.body ++ rest)))
      = some head.length := by
    have hblock := find_crlfcrlf (fun l hl => (hclean.cr_notMem_headLines order hl).1)
      (fun l hl => (hclean.cr_notMem_headLines order hl).2) (resp.body ++ rest)
    rw [crlfcrlf] at hblock
    rw [hhead, joinLines, List.append_assoc, crlfcrlf,
      Search.find_append_of_notMem hclean.cr_notMem_statusLine, hblock, Option.map_some,
      List.length_append, Nat.add_comm]
  have hdrop : (head ++ (crlfcrlf ++ (resp.body ++ rest))).drop (head.length + 4)
      = resp.body ++ rest := by
    rw [← List.drop_drop, List.drop_left]
    rfl
  rw [htext]
  refine ResponseClient.nextResponse_eq_item_iff.mpr
    ⟨head.length, resp.body.length, hfind, ?_, ?_, ?_, ?_⟩
  · rw [List.take_left, hhead, hclean.readHead_eq order]
    rfl
  · have hfour : crlfcrlf.length = 4 := rfl
    simp only [List.length_append, hfour]
    omega
  · rw [hdrop, List.take_left]
    rfl
  · rw [← List.drop_drop, hdrop, List.drop_left]

/-- **Responses delimit themselves.** From the texts of clean responses, one behind the other and
cut into chunks anywhere, the client reads the list of their status codes, headers and bodies,
and is left with nothing. -/
theorem feedAll_toString (resps : List HttpResponse) (hclean : ∀ resp ∈ resps, resp.Clean)
    (chunks : List Bytes) (hchunks : chunks.flatten = (resps.map (toString order)).flatten) :
    Consumer.feedAll ResponseClient.responseDecoder ResponseClient.accept chunks ()
      = ⟨resps.map reply, .waiting [], ()⟩ := by
  rw [Consumer.feedAll_eq_drain, hchunks]
  clear hchunks
  induction resps with
  | nil => exact Consumer.drain_nil _
  | cons resp resps ih =>
    have hnext : ResponseClient.responseDecoder.next
          (resp.toString order ++ (resps.map (toString order)).flatten)
        = .item resp.reply (resps.map (toString order)).flatten :=
      (ResponseClient.responseDecoder_next _).trans
        ((hclean resp List.mem_cons_self).nextResponse_toString order _)
    rw [List.map_cons, List.flatten_cons, Consumer.drain_item hnext]
    dsimp only [ResponseClient.accept]
    rw [ih fun r hr => hclean r (List.mem_cons_of_mem _ hr)]
    rfl

/-- A page whose text looks like another response. -/
def nested : HttpResponse :=
  ((({} : HttpResponse).setStatus 404 []).setContentType (lit "text/plain")).setBody
    (lit "\r\n\r\nHTTP/1.1 200 OK\r\nContent-Length: 9\r\n\r\n")

/-- Two pages, in two chunks that are cut behind the first byte. -/
theorem feedAll_toString_nested :
    Consumer.feedAll ResponseClient.responseDecoder ResponseClient.accept
        [(([nested, {}].map (toString .arbitrary)).flatten).take 1,
          (([nested, {}].map (toString .arbitrary)).flatten).drop 1] ()
      = ⟨[nested.reply, ({} : HttpResponse).reply], .waiting [], ()⟩ := by
  have hnested : nested.Clean :=
    ((clean_default.setStatus 404 (by decide)).setContentType (by decide)).setBody _
  refine feedAll_toString .arbitrary [nested, {}] (fun resp hresp => ?_) _ ?_
  · rcases List.mem_cons.mp hresp with rfl | hresp
    · exact hnested
    · rw [List.mem_singleton.mp hresp]
      exact clean_default
  · rw [List.flatten_cons, List.flatten_singleton, List.take_append_drop]

end HttpResponse
