import HttpServer.SerialisedRequest

/-!
# The text of a request and what the parser reads of it

A request on the wire is a head, which ends with the first empty line, and a body. Nothing else is
asked of an `HttpText`: the header lines may be spelled in any way, and the body may be announced by
any header or by none. So every request that a client can send is one, those of `RequestText` among
them (`RequestText.httpText`).

The parser looks for the head where it is, and it finds the tokens of the request line
(`HttpText.nextRequest_text_iff`). How much it takes for the body is another matter: if the length
that it reads is that of the body, it reads the request whole, and otherwise it takes a part of the
body, or more than the body, or it waits. A request is handled with its body exactly if it is read
whole (`HttpText.eq_of_handled`).
-/

/-! ## Texts -/

def requestLineOf (method target version : Bytes) : Bytes :=
  method ++ lit " " ++ target ++ lit " " ++ version

/-- **A request on the wire**: what its head and its body consist of. -/
structure HttpText where
  method : Bytes
  target : Bytes
  version : Bytes
  /-- The header lines, each with its terminator. -/
  fields : Bytes
  body : Bytes
  method_isToken : IsToken method
  target_isToken : IsToken target
  version_isToken : IsToken version
  /-- The first empty line is the one behind the header lines. -/
  find_head : Search.find crlfcrlf (requestLineOf method target version ++ crlf ++ fields ++ crlf)
    = some (requestLineOf method target version ++ fields).length

namespace HttpText

variable (r : HttpText)

def requestLine : Bytes := requestLineOf r.method r.target r.version

/-- The head, with the empty line. -/
def head : Bytes := r.requestLine ++ crlf ++ r.fields ++ crlf

def text : Bytes := r.head ++ r.body

/-- The target without the query. -/
def path : Bytes :=
  match Search.find (lit "?") r.target with
  | none => r.target
  | some queryPos => r.target.take queryPos

/-- **What should be handled for it**: a request with its request line and its body. -/
structure Handled (req : HttpRequest) : Prop where
  method_eq : req.method = r.method
  path_eq : req.path = r.path
  version_eq : req.version = r.version
  body_eq : req.body = r.body

/-- The parser reads it whole, as a request that keeps the connection. -/
def Kept : Prop := ∃ req, nextRequest r.text = .item (req, true) []

/-- The request that the parser makes of it. -/
def request : HttpRequest :=
  match nextRequest r.text with
  | .item (req, _) _ => req
  | _ => {}

end HttpText

/-! ## The head -/

/-- The form data change nothing else. -/
theorem HttpRequest.exists_formData (req : HttpRequest) (p : Prop) [Decidable p] :
    ∃ formData, (if p then req.parseFormData else req) = { req with formData } := by
  split
  · unfold parseFormData
    split
    · exact ⟨_, rfl⟩
    · exact ⟨req.formData, rfl⟩
  · exact ⟨req.formData, rfl⟩

/-- **What is made of a head that has been read**, and of the octets for its body. -/
theorem exists_completeRequest {head : HttpRequest} (hbody : head.body = []) (body : Bytes) :
    ∃ formData, completeRequest head head.path body.length body = { head with
      path := match Search.find (lit "?") head.path with
        | none => head.path
        | some queryPos => head.path.take queryPos
      body, formData } := by
  have hset : (if 0 < body.length then { head with body } else head) = { head with body } := by
    split
    · rfl
    · rename_i hpos
      have hnil : body = [] := List.length_eq_zero_iff.mp (by omega)
      rw [hnil, ← hbody]
  unfold completeRequest
  dsimp only
  rw [hset]
  cases Search.find (lit "?") head.path with
  | none => exact HttpRequest.exists_formData { head with body } _
  | some queryPos => exact HttpRequest.exists_formData { head with path := _, body } _

namespace HttpText

variable (r : HttpText) {req : HttpRequest} {keep : Bool} {t rest : Bytes}

theorem cr_notMem_requestLine : 0x0D ∉ r.requestLine := by
  have hm := cr_notMem_of_isToken r.method_isToken
  have ht := cr_notMem_of_isToken r.target_isToken
  have hv := cr_notMem_of_isToken r.version_isToken
  have hs : (0x0D : UInt8) ∉ lit " " := by decide
  simp only [requestLine, requestLineOf, List.mem_append]
  tauto

theorem length_head : r.head.length = (r.requestLine ++ r.fields).length + 4 := by
  simp only [head, crlf, List.length_append, List.length_cons, List.length_nil]
  omega

/-- **The head that is read**, whatever is behind it: that of a request with the tokens of the
request line. -/
theorem readHead_text {headerEnd : ℕ} {head : HttpRequest}
    (h : readHead (r.text ++ t) = some (headerEnd, head)) :
    readHead r.head = some (headerEnd, head) ∧ headerEnd + 4 = r.head.length
      ∧ ∃ headers,
        head = { method := r.method, path := r.target, version := r.version, headers } := by
  have hfind : Search.find crlfcrlf r.head = some (r.requestLine ++ r.fields).length := r.find_head
  rw [text, List.append_assoc, readHead_append hfind] at h
  obtain ⟨hend, lineEnd, method, path, version, hline, hparse, rfl⟩ := readHead_eq_some_iff.mp h
  obtain rfl : headerEnd = (r.requestLine ++ r.fields).length :=
    Option.some.inj (hend.symm.trans hfind)
  refine ⟨h, r.length_head.symm, ?_⟩
  -- the request line is the first one
  have htake : r.head.take (r.requestLine ++ r.fields).length
      = r.requestLine ++ (crlf ++ r.fields ++ crlf).take r.fields.length := by
    rw [head, List.append_assoc, List.append_assoc, List.length_append, List.take_length_add_append,
      List.append_assoc]
  have hfirst : lineEnd = r.requestLine.length := by
    rw [htake, crlf, Search.find_append_of_notMem r.cr_notMem_requestLine] at hline
    obtain ⟨i, hi, rfl⟩ := Option.map_eq_some_iff.mp hline
    have hlong := Search.add_length_le_of_find hi (by simp)
    rw [List.length_take, List.length_cons, List.length_singleton] at hlong
    have hprefix : [0x0D, 0x0A]
        <+: ([0x0D, 0x0A] ++ r.fields ++ [0x0D, 0x0A]).take r.fields.length :=
      List.prefix_take_iff.mpr ⟨by rw [List.append_assoc]; exact List.prefix_append _ _,
        by rw [List.length_cons, List.length_singleton]; omega⟩
    have hzero := hi.symm.trans (Search.find_of_prefix hprefix)
    rw [Option.some.inj hzero, Nat.zero_add]
  rw [hfirst, htake, List.take_left, requestLine, requestLineOf,
    parseRequestLine_tokens r.method_isToken r.target_isToken r.version_isToken] at hparse
  cases hparse
  exact exists_parseHeaderLines _ _

theorem readHead_text_of_head {headerEnd : ℕ} {head : HttpRequest}
    (h : readHead r.head = some (headerEnd, head)) (t : Bytes) :
    readHead (r.text ++ t) = some (headerEnd, head) := by
  have hfind : Search.find crlfcrlf r.head = some (r.requestLine ++ r.fields).length := r.find_head
  rw [text, List.append_assoc, readHead_append hfind, h]

/-- **What the parser reads of a text**, with anything behind it: its head, and as many octets for
the body as the head announces. -/
theorem nextRequest_text_iff :
    nextRequest (r.text ++ t) = .item (req, keep) rest
      ↔ ∃ headerEnd head length, readHead r.head = some (headerEnd, head)
        ∧ contentLength head = .ok length ∧ length ≤ maxBodySize
        ∧ length ≤ (r.body ++ t).length
        ∧ req = completeRequest head head.path length ((r.body ++ t).take length)
        ∧ keep = keepAlive req head.version ∧ rest = (r.body ++ t).drop length := by
  have htext : r.text ++ t = r.head ++ (r.body ++ t) := List.append_assoc ..
  have hdrop (n : ℕ) : (r.text ++ t).drop (r.head.length + n) = (r.body ++ t).drop n := by
    rw [htext, ← List.drop_drop, List.drop_left]
  have hlength : (r.text ++ t).length = r.head.length + (r.body ++ t).length := by
    rw [htext, List.length_append]
  rw [nextRequest_eq_item_iff]
  constructor
  · rintro ⟨headerEnd, head, length, hhead, hlen, hmax, hfits, rfl, rfl, rfl⟩
    obtain ⟨hhead, hend, -⟩ := r.readHead_text hhead
    refine ⟨headerEnd, head, length, hhead, hlen, hmax, by omega, ?_, ?_, ?_⟩
    · rw [hend, ← Nat.add_zero r.head.length, hdrop, List.drop_zero]
    · rfl
    · rw [hend, hdrop]
  · rintro ⟨headerEnd, head, length, hhead, hlen, hmax, hfits, rfl, rfl, rfl⟩
    have htop := r.readHead_text_of_head hhead t
    obtain ⟨-, hend, -⟩ := r.readHead_text htop
    refine ⟨headerEnd, head, length, htop, hlen, hmax, by omega, ?_, rfl, ?_⟩
    · rw [hend, ← Nat.add_zero r.head.length, hdrop, List.drop_zero]
    · rw [hend, hdrop]

/-- **The request that is read** has the request line of the text, and its body is where that of
the text is. -/
theorem request_of_nextRequest (h : nextRequest (r.text ++ t) = .item (req, keep) rest) :
    req.method = r.method ∧ req.path = r.path ∧ req.version = r.version
      ∧ req.body ++ rest = r.body ++ t := by
  obtain ⟨headerEnd, head, length, hhead, -, -, hfits, rfl, -, rfl⟩ := r.nextRequest_text_iff.mp h
  obtain ⟨-, -, headers, hrequest⟩ := r.readHead_text (r.readHead_text_of_head hhead [])
  have hbody : head.body = [] := by rw [hrequest]
  have hlength : ((r.body ++ t).take length).length = length := by
    rw [List.length_take, Nat.min_eq_left hfits]
  obtain ⟨formData, hreq⟩ := exists_completeRequest hbody ((r.body ++ t).take length)
  rw [hlength] at hreq
  rw [hreq, hrequest]
  exact ⟨rfl, rfl, rfl, List.take_append_drop _ _⟩

/-- **A text that is handled is read whole.** -/
theorem eq_of_handled (h : nextRequest (r.text ++ t) = .item (req, keep) rest)
    (hreq : r.Handled req) : rest = t ∧ nextRequest r.text = .item (req, keep) [] := by
  obtain ⟨-, -, -, hbody⟩ := r.request_of_nextRequest h
  obtain ⟨headerEnd, head, length, hhead, hlen, hmax, hfits, hcomplete, hkeep, hrest⟩ :=
    r.nextRequest_text_iff.mp h
  rw [hreq.body_eq] at hbody
  obtain rfl := List.append_cancel_left hbody
  -- as many octets have been taken as there are in the body
  have hwhole : length = r.body.length := by
    have hcount := congrArg List.length hrest
    rw [List.length_drop, List.length_append] at hcount
    rw [List.length_append] at hfits
    omega
  subst hwhole
  refine ⟨rfl, ?_⟩
  have hiff : nextRequest (r.text ++ []) = .item (req, keep) [] ↔ _ := r.nextRequest_text_iff
  rw [List.append_nil, List.append_nil] at hiff
  refine hiff.mpr ⟨headerEnd, head, r.body.length, hhead, hlen, hmax, Nat.le_refl _, ?_, hkeep,
    List.drop_length.symm⟩
  rw [hcomplete, List.take_left, List.take_length]

/-- A text that is read whole is handled, and read so whatever is behind it. -/
theorem nextRequest_append (h : nextRequest r.text = .item (req, keep) []) (t : Bytes) :
    nextRequest (r.text ++ t) = .item (req, keep) t := by
  have happend := httpDecoder.item_append h t
  rwa [List.nil_append] at happend

theorem handled_of_nextRequest (h : nextRequest r.text = .item (req, keep) []) :
    r.Handled req := by
  have htext : nextRequest (r.text ++ []) = .item (req, keep) [] := by rwa [List.append_nil]
  obtain ⟨hmethod, hpath, hversion, hbody⟩ := r.request_of_nextRequest htext
  rw [List.append_nil, List.append_nil] at hbody
  exact ⟨hmethod, hpath, hversion, hbody⟩

/-- A part of a text that is read whole is no request. -/
theorem nextRequest_part (h : nextRequest r.text = .item (req, keep) []) {v t : Bytes}
    (hv : v ++ t = r.text) (hne : t ≠ []) : nextRequest v = .more := by
  rw [← hv] at h
  cases hnext : nextRequest v with
  | more => rfl
  | item a rest =>
    have happ : nextRequest (v ++ t) = .item a (rest ++ t) := httpDecoder.item_append hnext t
    rw [h] at happ
    injection happ with _ hrest
    exact absurd (List.append_eq_nil_iff.mp hrest.symm).2 hne
  | fail e =>
    have happ : nextRequest (v ++ t) = .fail e := httpDecoder.fail_append hnext t
    rw [h] at happ
    cases happ

end HttpText

/-! ## The texts of clients -/

namespace RequestText

variable (r : RequestText)

/-- The header lines, each with its terminator. -/
def fields : Bytes := (r.headers.map fun h => headerLine h ++ crlf).flatten

theorem headerPart_append_crlfcrlf :
    r.headerPart ++ crlfcrlf = r.requestLine ++ crlf ++ r.fields ++ crlf := by
  have hmove := crlf_append_flatten (r.headers.map headerLine)
  rw [List.map_map] at hmove
  have hfields : r.fields = ((r.headers.map ((fun l => l ++ crlf) ∘ headerLine))).flatten := rfl
  rw [hfields, List.append_assoc r.requestLine, hmove, headerPart,
    ← List.append_assoc r.requestLine, List.append_assoc _ crlf crlf]
  rfl

/-- The first empty line is the one behind the headers. -/
theorem find_head :
    Search.find crlfcrlf (r.requestLine ++ crlf ++ r.fields ++ crlf)
      = some (r.requestLine ++ r.fields).length := by
  have hfind := r.find_headerPart_append []
  have hlength := congrArg List.length r.headerPart_append_crlfcrlf
  rw [List.append_nil, headerPart_append_crlfcrlf] at hfind
  refine hfind.trans (congrArg some ?_)
  simp only [crlf, crlfcrlf, List.length_append, List.length_cons, List.length_nil] at hlength
  rw [List.length_append]
  omega

/-- The text of a client's request. -/
def httpText : HttpText where
  method := r.method
  target := r.path
  version := r.version
  fields := r.fields
  body := r.body
  method_isToken := r.method_isToken
  target_isToken := r.path_isToken
  version_isToken := r.version_isToken
  find_head := r.find_head

theorem text_httpText : r.httpText.text = r.serialise := rfl

/-- **Which texts of clients are read whole and keep the connection**: those with a header, in which
the length of a body is announced in front of the last one, and in which what is in front of the
last one keeps the connection. -/
theorem kept_iff :
    r.httpText.Kept ↔ ∃ headers last, r.headers = headers ++ [last]
      ∧ (r.body ≠ [] → lit "Content-Length" ∈ headers.map Prod.fst)
      ∧ keepAlive { headers := headerMap headers } r.version = true := by
  -- what is read keeps the connection if the headers in front of the last one say so
  have hkeep {headers : List (Bytes × Bytes)} {last : Bytes × Bytes}
      (hcons : r.headers = headers ++ [last]) {req : HttpRequest} {keep : Bool} {rest : Bytes}
      (hitem : nextRequest r.serialise = .item (req, keep) rest) :
      keep = keepAlive { headers := headerMap headers } r.version := by
    obtain ⟨head, hhead, hheaders⟩ := r.readHead_serialise hcons []
    rw [List.append_nil] at hhead
    obtain ⟨_, head', _, hhead', -, -, -, rfl, rfl, -⟩ := nextRequest_eq_item_iff.mp hitem
    obtain ⟨-, rfl⟩ := Prod.mk.inj (Option.some.inj (hhead.symm.trans hhead'))
    have htext : readHead (r.httpText.text ++ []) = some (r.headerPart.length, head) := by
      rw [List.append_nil, text_httpText, hhead]
    obtain ⟨-, -, headers', hhead''⟩ := r.httpText.readHead_text htext
    have hversion : head.version = r.version := congrArg HttpRequest.version hhead''
    rw [hversion, keepAlive, keepAlive, HttpRequest.getHeader, HttpRequest.getHeader,
      completeRequest_headers, hheaders]
  constructor
  · rintro ⟨req, hitem⟩
    obtain ⟨headers, last, hcons, hbody⟩ := r.isComplete_iff.mp ⟨_, hitem⟩
    exact ⟨headers, last, hcons, hbody, (hkeep hcons hitem).symm⟩
  · rintro ⟨headers, last, hcons, hbody, hkept⟩
    obtain ⟨⟨req, keep⟩, hitem⟩ := r.isComplete_iff.mpr ⟨headers, last, hcons, hbody⟩
    rw [← hkeep hcons hitem] at hkept
    exact ⟨req, hkept ▸ hitem⟩

end RequestText
