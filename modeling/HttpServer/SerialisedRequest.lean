import HttpServer.HeaderBlock

/-!
# Requests that are read whole

A client's request (`RequestText`) is not parsed back from its text, because the last
header line is dropped. It may still be read whole: as one request, with nothing left over.
`isComplete_iff` says which requests are: those with a header, in which the length of the
body, if there is one, is not announced by the last header.

The parts of the text are found again one by one: the length in decimal digits
(`stoul_toDecimal`), the tokens of the request line (`parseRequestLine_requestLine`) and
the header block (`readHead_serialise`).
-/

/-! ## Decimal numbers -/

/-- The digits of a number are those of its tenth and one more. -/
theorem toDecimal_eq (n : ℕ) :
    toDecimal n = (if n < 10 then [] else toDecimal (n / 10)) ++ [.ofNat (0x30 + n % 10)] := by
  unfold toDecimal
  by_cases hzero : n = 0
  · subst hzero
    rfl
  · rw [if_neg hzero, Nat.digits_def' (by decide) (Nat.pos_of_ne_zero hzero), List.reverse_cons,
      List.map_append, List.map_singleton]
    by_cases hsmall : n < 10
    · rw [if_pos hsmall, Nat.div_eq_of_lt hsmall]
      rfl
    · rw [if_neg hsmall, if_neg (Nat.div_ne_zero_iff.mpr ⟨by decide, Nat.not_lt.mp hsmall⟩)]

theorem toDecimal_ne_nil (n : ℕ) : toDecimal n ≠ [] := by
  rw [toDecimal_eq]
  exact List.append_ne_nil_of_right_ne_nil _ (List.cons_ne_nil _ _)

/-- The octet of a digit. -/
theorem toNat_digit (n : ℕ) : (UInt8.ofNat (0x30 + n % 10)).toNat = 0x30 + n % 10 := by
  rw [UInt8.toNat_ofNat']
  omega

theorem isDigit_of_mem_toDecimal {n : ℕ} {c : UInt8} (hc : c ∈ toDecimal n) :
    isDigit c = true := by
  induction n using Nat.strongRecOn with
  | _ n ih =>
    rw [toDecimal_eq, List.mem_append, List.mem_singleton] at hc
    rcases hc with hfront | rfl
    · split at hfront
      · cases hfront
      · exact ih (n / 10) (by omega) hfront
    · have hlast := toNat_digit n
      simp only [isDigit, Bool.and_eq_true, decide_eq_true_eq, UInt8.le_iff_toNat_le, hlast]
      exact ⟨Nat.le_add_right _ _, by show _ ≤ 57; omega⟩

/-- **A number is the value of its digits.** -/
theorem decimal_toDecimal (n : ℕ) : decimal (toDecimal n) = n := by
  induction n using Nat.strongRecOn with
  | _ n ih =>
    rw [toDecimal_eq, decimal, List.foldl_append]
    show 10 * decimal _ + ((UInt8.ofNat (0x30 + n % 10)).toNat - 0x30) = n
    rw [toNat_digit, Nat.add_sub_cancel_left]
    split
    · show 10 * 0 + n % 10 = n
      omega
    · rw [ih (n / 10) (by omega)]
      exact Nat.div_add_mod n 10

/-- A digit is neither a blank nor a sign. -/
theorem isSpace_of_isDigit {c : UInt8} (hc : isDigit c = true) :
    isSpace c = false ∧ c ≠ 0x2D ∧ c ≠ 0x2B := by
  simp only [isDigit, Bool.and_eq_true, decide_eq_true_eq, UInt8.le_iff_toNat_le] at hc
  have hlow : 0x30 ≤ c.toNat := hc.1
  refine ⟨?_, ?_, ?_⟩
  · have hblank : ¬ c.toNat = 0x20 := by omega
    have hbreak : ¬ c.toNat ≤ 0x0D := by omega
    simp only [isSpace, Bool.or_eq_false_iff, Bool.and_eq_false_iff, beq_eq_false_iff_ne,
      decide_eq_false_iff_not, UInt8.le_iff_toNat_le, ne_eq, ← UInt8.toNat_inj]
    exact ⟨hblank, Or.inr hbreak⟩
  · rintro rfl
    exact absurd hlow (by decide)
  · rintro rfl
    exact absurd hlow (by decide)

/-- Digits are taken as they are, up to what follows. -/
theorem takeWhile_isDigit_append {s t : Bytes} (hdigits : ∀ c ∈ s, isDigit c = true)
    (ht : ∀ c ∈ t.head?, isDigit c = false) : (s ++ t).takeWhile isDigit = s := by
  have hstop : t.takeWhile isDigit = [] := by
    cases t with
    | nil => rfl
    | cons c t => exact List.takeWhile_cons_of_neg (by simp [ht c rfl])
  rw [List.takeWhile_append_of_pos hdigits, hstop, List.append_nil]

/-- `std::stoul` reads the digits and leaves what follows. -/
theorem stoul_append {s t : Bytes} (hne : s ≠ []) (hdigits : ∀ c ∈ s, isDigit c = true)
    (hlt : decimal s < 2 ^ 64) (ht : ∀ c ∈ t.head?, isDigit c = false) :
    stoul (s ++ t) = .ok (decimal s) := by
  have htake := takeWhile_isDigit_append hdigits ht
  obtain ⟨c, s, rfl⟩ := List.exists_cons_of_ne_nil hne
  obtain ⟨hspace, hminus, hplus⟩ := isSpace_of_isDigit (hdigits c List.mem_cons_self)
  unfold stoul
  rw [List.cons_append, List.dropWhile_cons_of_neg (by simp [hspace])]
  dsimp only
  split
  · rename_i hsign
    exact absurd (List.cons.inj hsign).1 hminus
  · rename_i hsign
    exact absurd (List.cons.inj hsign).1 hplus
  · dsimp only
    rw [← List.cons_append, htake, if_neg (by simp), if_neg (by omega), if_neg (by simp)]

/-- `std::stoul` on digits. -/
theorem stoul_of_digits {s : Bytes} (hne : s ≠ []) (hdigits : ∀ c ∈ s, isDigit c = true)
    (hlt : decimal s < 2 ^ 64) : stoul s = .ok (decimal s) := by
  have h := stoul_append (t := []) hne hdigits hlt nofun
  rwa [List.append_nil] at h

/-- **A number is read back from its digits.** -/
theorem stoul_toDecimal {n : ℕ} (hn : n < 2 ^ 64) : stoul (toDecimal n) = .ok n := by
  have hvalue := decimal_toDecimal n
  rw [stoul_of_digits (toDecimal_ne_nil n) (fun c => isDigit_of_mem_toDecimal)
    (by rw [hvalue]; exact hn), hvalue]

/-! ## The request line -/

/-- A token is extracted as it is, up to the blank behind it. -/
theorem extractToken_of_isToken {s t : Bytes} (hs : IsToken s)
    (ht : ∀ c ∈ t.head?, isSpace c = true) : extractToken (s ++ t) = some (s, t) := by
  obtain ⟨hne, hspace⟩ := hs
  have hin : ∀ c ∈ s, (!isSpace c) = true := fun c hc => by rw [hspace c hc]; rfl
  have hskip : (s ++ t).dropWhile isSpace = s ++ t := by
    obtain ⟨c, s, rfl⟩ := List.exists_cons_of_ne_nil hne
    exact List.dropWhile_cons_of_neg (by simp [hspace c List.mem_cons_self])
  have hstop : t.takeWhile (fun c => !isSpace c) = []
      ∧ t.dropWhile (fun c => !isSpace c) = t := by
    cases t with
    | nil => exact ⟨rfl, rfl⟩
    | cons c t =>
      have hc : ¬ (!isSpace c) = true := by simp [ht c rfl]
      exact ⟨List.takeWhile_cons_of_neg hc, List.dropWhile_cons_of_neg hc⟩
  unfold extractToken
  dsimp only
  rw [hskip, List.takeWhile_append_of_pos hin, List.dropWhile_append_of_pos hin, hstop.1, hstop.2,
    List.append_nil, if_neg (hne ∘ List.isEmpty_iff.mp)]

/-- A blank in front of a token is skipped. -/
theorem extractToken_cons {c : UInt8} (hc : isSpace c = true) (s : Bytes) :
    extractToken (c :: s) = extractToken s := by
  unfold extractToken
  rw [List.dropWhile_cons_of_pos hc]

/-- **A request line is parsed back** into its tokens. -/
theorem parseRequestLine_tokens {method path version : Bytes} (hmethod : IsToken method)
    (hpath : IsToken path) (hversion : IsToken version) :
    parseRequestLine (method ++ lit " " ++ path ++ lit " " ++ version)
      = some (method, path, version) := by
  have hblank : isSpace 0x20 = true := rfl
  have hline : method ++ lit " " ++ path ++ lit " " ++ version
      = method ++ 0x20 :: (path ++ 0x20 :: version) := by
    show method ++ [0x20] ++ path ++ [0x20] ++ version = _
    simp
  have hhead : ∀ (t : Bytes), ∀ c ∈ (0x20 :: t).head?, isSpace c = true := by
    intro t c hc
    cases hc
    rfl
  have hlast := extractToken_of_isToken (t := []) hversion nofun
  rw [List.append_nil] at hlast
  unfold parseRequestLine
  rw [hline, extractToken_of_isToken hmethod (hhead _), Option.bind_some]
  dsimp only
  rw [extractToken_cons hblank, extractToken_of_isToken hpath (hhead _), Option.bind_some]
  dsimp only
  rw [extractToken_cons hblank, hlast]
  rfl

theorem RequestText.parseRequestLine_requestLine (r : RequestText) :
    parseRequestLine r.requestLine = some (r.method, r.path, r.version) :=
  parseRequestLine_tokens r.method_isToken r.path_isToken r.version_isToken

/-! ## The header block -/

/-- A header that is written once has the value that is written. -/
theorem lookup_headerMap {headers : List (Bytes × Bytes)} {h : Bytes × Bytes}
    (hnodup : (headers.map Prod.fst).Nodup) (hmem : h ∈ headers) :
    (headerMap headers).lookup h.1 = some h.2 := by
  induction headers using List.reverseRecOn with
  | nil => cases hmem
  | append_singleton headers last ih =>
    rw [List.map_append, List.nodup_append] at hnodup
    obtain ⟨hnodup, -, hnew⟩ := hnodup
    rw [headerMap_append]
    rcases List.mem_append.mp hmem with hfront | hlast
    · have hne : h.1 ≠ last.1 :=
        hnew _ (List.mem_map_of_mem hfront) _ (List.mem_singleton.mpr rfl)
      rw [Finmap.lookup_insert_of_ne _ hne, ih hnodup hfront]
    · rw [List.mem_singleton.mp hlast, Finmap.lookup_insert]

namespace RequestText

variable (r : RequestText)

/-- Without a header there is no header block to be read. -/
theorem readHead_serialise_of_nil (hnil : r.headers = []) (rest : Bytes) :
    readHead (r.serialise ++ rest) = none := by
  obtain ⟨hend, htake⟩ := r.find_serialise rest
  unfold readHead
  rw [hend, Option.bind_some, htake, r.find_headerPart_of_nil hnil, Option.bind_none]

/-- **The header block is read**, but for its last line. -/
theorem readHead_serialise {headers : List (Bytes × Bytes)} {last : Bytes × Bytes}
    (hcons : r.headers = headers ++ [last]) (rest : Bytes) :
    ∃ head, readHead (r.serialise ++ rest) = some (r.headerPart.length, head)
      ∧ head.headers = headerMap headers := by
  obtain ⟨hend, htake⟩ := r.find_serialise rest
  obtain ⟨hline, hfirst, hlines⟩ := r.find_headerPart hcons
  have hmem : ∀ h ∈ headers, h ∈ r.headers := fun h hm => by
    rw [hcons]
    exact List.mem_append_left _ hm
  refine ⟨_, readHead_eq_some_iff.mpr ⟨hend, _, r.method, r.path, r.version,
    by rw [htake]; exact hline, by rw [htake, hfirst]; exact r.parseRequestLine_requestLine,
    rfl⟩, ?_⟩
  rw [htake, hlines]
  exact foldl_parseHeaderLine (fun h hm => (r.key_noSeparator h (hmem h hm)).1)
    (fun h hm => r.value_noBlank h (hmem h hm)) rfl

/-- **The length that is read**: that of the body if a header in front of the last one
announces it, and 0 otherwise. -/
theorem contentLength_of_headers {headers : List (Bytes × Bytes)} {last : Bytes × Bytes}
    (hcons : r.headers = headers ++ [last]) {head : HttpRequest}
    (hhead : head.headers = headerMap headers) :
    contentLength head
      = .ok (if lit "Content-Length" ∈ headers.map Prod.fst then r.body.length else 0) := by
  unfold contentLength HttpRequest.getHeader
  rw [hhead]
  by_cases hkey : lit "Content-Length" ∈ headers.map Prod.fst
  · have hbody : r.body ≠ [] := by
      intro hnil
      refine r.body_unannounced hnil ?_
      rw [hcons, List.map_append]
      exact List.mem_append_left _ hkey
    obtain ⟨hann, hmax⟩ := r.body_announced hbody
    have hnodup := r.keys_nodup
    rw [hcons, List.map_append, List.nodup_append] at hnodup
    -- the header that announces the length is the one with its name
    have hfront : (lit "Content-Length", toDecimal r.body.length) ∈ headers := by
      rw [hcons, List.mem_append, List.mem_singleton] at hann
      refine hann.resolve_right fun hlast => ?_
      exact hnodup.2.2 _ hkey _ (List.mem_singleton.mpr rfl) (congrArg Prod.fst hlast)
    have hlookup := lookup_headerMap hnodup.1 hfront
    dsimp only at hlookup
    have hlt : r.body.length < 2 ^ 64 := lt_of_le_of_lt hmax (by decide)
    rw [if_pos hkey, hlookup, Option.getD_some,
      if_neg (toDecimal_ne_nil _ ∘ List.isEmpty_iff.mp), stoul_toDecimal hlt]
  · rw [if_neg hkey, lookup_headerMap_of_notMem hkey]
    rfl

/-! ## Which requests are read whole -/

/-- **What is read of a request with a header**: one request, of which a body that is not
announced in time is left over. -/
theorem nextRequest_serialise {headers : List (Bytes × Bytes)} {last : Bytes × Bytes}
    (hcons : r.headers = headers ++ [last]) (rest : Bytes) :
    ∃ item, nextRequest (r.serialise ++ rest)
      = .item item ((r.body ++ rest).drop
        (if lit "Content-Length" ∈ headers.map Prod.fst then r.body.length else 0)) := by
  obtain ⟨head, hhead, hheaders⟩ := r.readHead_serialise hcons rest
  have hlength := r.contentLength_of_headers hcons hheaders
  set length := if lit "Content-Length" ∈ headers.map Prod.fst then r.body.length else 0
    with hdef
  have hle : length ≤ r.body.length := by
    rw [hdef]
    split
    · exact Nat.le_refl _
    · exact Nat.zero_le _
  have hmax : length ≤ maxBodySize := by
    by_cases hbody : r.body = []
    · rw [hbody, List.length_nil, Nat.le_zero] at hle
      rw [hle]
      exact Nat.zero_le _
    · exact hle.trans (r.body_announced hbody).2
  have htext : r.serialise ++ rest = (r.headerPart ++ crlfcrlf) ++ (r.body ++ rest) := by
    rw [serialise_eq]
    simp only [List.append_assoc]
  have hblock : (r.headerPart ++ crlfcrlf).length = r.headerPart.length + 4 :=
    List.length_append
  have hfits : r.headerPart.length + 4 + length ≤ (r.serialise ++ rest).length := by
    rw [htext, List.length_append, hblock, List.length_append]
    omega
  have hdrop : (r.serialise ++ rest).drop (r.headerPart.length + 4 + length)
      = (r.body ++ rest).drop length := by
    rw [htext, ← hblock, ← List.drop_drop, List.drop_left]
  exact ⟨_, nextRequest_eq_item_iff.mpr
    ⟨r.headerPart.length, head, length, hhead, hlength, hmax, hfits, rfl, rfl, hdrop.symm⟩⟩

/-- **Which requests are read whole**: those with a header, and with the length of the body
announced in front of the last header if there is a body. -/
theorem isComplete_iff :
    (∃ item, nextRequest r.serialise = .item item [])
      ↔ ∃ headers last, r.headers = headers ++ [last]
        ∧ (r.body ≠ [] → lit "Content-Length" ∈ headers.map Prod.fst) := by
  rcases List.eq_nil_or_concat r.headers with hnil | ⟨headers, last, hcons⟩
  · have hhead := r.readHead_serialise_of_nil hnil []
    rw [List.append_nil] at hhead
    rw [nextRequest_eq, hhead, hnil]
    exact iff_of_false nofun (by simp)
  · rw [List.concat_eq_append] at hcons
    obtain ⟨item, hitem⟩ := r.nextRequest_serialise hcons []
    rw [List.append_nil, List.append_nil] at hitem
    rw [hitem]
    constructor
    · rintro ⟨item', hwhole⟩
      refine ⟨headers, last, hcons, fun hbody => ?_⟩
      by_contra hkey
      rw [if_neg hkey, List.drop_zero] at hwhole
      exact hbody (Consumer.Attempt.item.inj hwhole).2
    · rintro ⟨headers', last', hcons', hkey⟩
      obtain ⟨rfl, -⟩ := List.append_inj_left' (hcons.symm.trans hcons') rfl
      refine ⟨item, ?_⟩
      by_cases hbody : r.body = []
      · rw [hbody, List.drop_nil]
      · rw [if_pos (hkey hbody), List.drop_length]

end RequestText
