import HttpServer.Base64
import HttpServer.Cpp

/-!
# The answer to a WebSocket handshake

`base64Encode`, `ComputeAccept` and `HandshakeResponse` of
`application/websocket/websocket_session.cpp`. The encoder collects three octets in
`char_array_3`, cuts them into the four indices of `char_array_4` and writes their characters.
One variable, `i`, counts the octets collected, then the characters written, then the padding.
-/

/-! ## The source -/

/-- `base64_chars`. -/
def base64Chars : Bytes := lit "ABCDEFGHIJKLMNOPQRSTUVWXYZabcdefghijklmnopqrstuvwxyz0123456789+/"

/-- The local variables of `base64Encode`. -/
structure Base64State where
  i : ℕ
  charArray3 : Vector UInt8 3
  charArray4 : Vector UInt8 4
  result : Bytes

/-- The three assignments that a full group and an incomplete one share. -/
def setIndices (charArray3 : Vector UInt8 3) (charArray4 : Vector UInt8 4) : Vector UInt8 4 :=
  ((charArray4.set 0 ((charArray3[0] &&& 0xfc) >>> 2)).set 1
    (((charArray3[0] &&& 0x03) <<< 4) + ((charArray3[1] &&& 0xf0) >>> 4))).set 2
    (((charArray3[1] &&& 0x0f) <<< 2) + ((charArray3[2] &&& 0xc0) >>> 6))

/-- `for (j = start; j < stop; j++) result += base64_chars[char_array_4[j]];`. A read that is
outside of an array is `none`. -/
def appendChars (charArray4 : Vector UInt8 4) (stop start : ℕ) (result : Bytes) : Option Bytes :=
  if start < stop then do
    let index ← charArray4[start]?
    let c ← base64Chars[index.toNat]?
    appendChars charArray4 stop (start + 1) (result ++ [c])
  else some result
termination_by stop - start

/-- `for (int j = start; j < 3; j++) char_array_3[j] = '\0';`. -/
def zeroFill (start : ℕ) (charArray3 : Vector UInt8 3) : Vector UInt8 3 :=
  if h : start < 3 then zeroFill (start + 1) (charArray3.set start 0) else charArray3
termination_by 3 - start

/-- `while (i++ < 3) result += '=';`. -/
def padResult (i : ℕ) (result : Bytes) : Bytes :=
  if i < 3 then padResult (i + 1) (result ++ lit "=") else result
termination_by 3 - i

/-- The body of `if (i == 3)`, which writes a full group. -/
def Base64State.flush (s : Base64State) : Option Base64State := do
  let charArray4 := (setIndices s.charArray3 s.charArray4).set 3 (s.charArray3[2] &&& 0x3f)
  -- `i` runs from 0 to 4 here, and is set to zero for the next group
  let result ← appendChars charArray4 4 0 s.result
  some { s with i := 0, charArray4, result }

/-- One turn of `while (length--)`, on the octet that it reads. A write that is outside of
`char_array_3` is `none`. -/
def Base64State.push (s : Base64State) (b : UInt8) : Option Base64State :=
  if h : s.i < 3 then
    let s' := { s with i := s.i + 1, charArray3 := s.charArray3.set s.i b }
    if s'.i = 3 then s'.flush else some s'
  else none

/-- What follows the loop: the octets that are left over, and the padding. -/
def Base64State.finish (s : Base64State) : Option Bytes :=
  if s.i ≠ 0 then do
    let charArray4 := setIndices (zeroFill s.i s.charArray3) s.charArray4
    let result ← appendChars charArray4 (s.i + 1) 0 s.result
    some (padResult s.i result)
  else some s.result

/-- `base64Encode`, on the `length` octets that `input` points to. The two arrays are not
initialised: they hold what was on the stack. -/
def base64Encode (charArray3 : Vector UInt8 3) (charArray4 : Vector UInt8 4) (input : Bytes) :
    Option Bytes := do
  let s ← input.foldlM Base64State.push { i := 0, charArray3, charArray4, result := [] }
  s.finish

/-- `ComputeAccept`. `SHA1` is a function of the cryptographic library, which writes the
`SHA_DIGEST_LENGTH` octets of `sha`. -/
def computeAccept (SHA1 : Bytes → Vector UInt8 20) (charArray3 : Vector UInt8 3)
    (charArray4 : Vector UInt8 4) (key : Bytes) : Option Bytes :=
  let accept := key ++ lit "258EAFA5-E914-47DA-95CA-C5AB0DC85B11"
  base64Encode charArray3 charArray4 (SHA1 accept).toList

/-- `HandshakeResponse`. -/
def handshakeResponse (SHA1 : Bytes → Vector UInt8 20) (charArray3 : Vector UInt8 3)
    (charArray4 : Vector UInt8 4) (key : Bytes) : Option Bytes := do
  let accept ← computeAccept SHA1 charArray3 charArray4 key
  some (lit "HTTP/1.1 101 Switching Protocols\r\n"
    ++ lit "Upgrade: websocket\r\n"
    ++ lit "Connection: Upgrade\r\n"
    ++ lit "Sec-WebSocket-Accept: " ++ accept ++ lit "\r\n"
    ++ lit "\r\n")

/-! ## The indices -/

/-- The upper bits of an octet. -/
theorem toNat_and_shiftRight {m k : UInt8} {w : ℕ} (hk : k.toNat < 8)
    (hm : m.toNat >>> k.toNat = 2 ^ w - 1) (b : UInt8) :
    ((b &&& m) >>> k).toNat = b.toNat / 2 ^ k.toNat % 2 ^ w := by
  rw [UInt8.toNat_shiftRight, Nat.mod_eq_of_lt hk, UInt8.toNat_and, Nat.shiftRight_and_distrib, hm,
    Nat.and_two_pow_sub_one_eq_mod, Nat.shiftRight_eq_div_pow]

/-- The lower bits of an octet, moved up. -/
theorem toNat_and_shiftLeft {m k : UInt8} {w : ℕ} (hk : k.toNat < 8) (hw : k.toNat + w ≤ 8)
    (hm : m.toNat = 2 ^ w - 1) (b : UInt8) :
    ((b &&& m) <<< k).toNat = 2 ^ k.toNat * (b.toNat % 2 ^ w) := by
  have hlt : 2 ^ k.toNat * (b.toNat % 2 ^ w) < 2 ^ 8 :=
    calc 2 ^ k.toNat * (b.toNat % 2 ^ w)
        < 2 ^ k.toNat * 2 ^ w :=
          Nat.mul_lt_mul_of_pos_left (Nat.mod_lt _ (by positivity)) (by positivity)
      _ = 2 ^ (k.toNat + w) := (pow_add 2 _ _).symm
      _ ≤ 2 ^ 8 := Nat.pow_le_pow_right (by decide) hw
  rw [UInt8.toNat_shiftLeft, Nat.mod_eq_of_lt hk, UInt8.toNat_and, hm,
    Nat.and_two_pow_sub_one_eq_mod, Nat.shiftLeft_eq, Nat.mul_comm, Nat.mod_eq_of_lt hlt]

theorem exists_eq_vec3 (v : Vector UInt8 3) : ∃ a b c, v = #v[a, b, c] := by
  obtain ⟨a, b, c, h⟩ := List.length_eq_three.mp v.length_toList
  exact ⟨a, b, c, Vector.toList_inj.mp h⟩

/-- **The indices** that a full and an incomplete group share are the first digits of the octets
in `char_array_3`. -/
theorem take_setIndices (charArray3 : Vector UInt8 3) (charArray4 : Vector UInt8 4) :
    ((setIndices charArray3 charArray4).toList.take 3).map UInt8.toNat
      = (Base64.digits 4 (Base64.groupValue charArray3.toList)).take 3 := by
  obtain ⟨a, b, c, rfl⟩ := exists_eq_vec3 charArray3
  have ha : a.toNat < 256 := a.toNat_lt
  have hb : b.toNat < 256 := b.toNat_lt
  have hc : c.toNat < 256 := c.toNat_lt
  have h₀ : ((a &&& 0xfc) >>> 2).toNat = a.toNat / 4 % 64 :=
    toNat_and_shiftRight (w := 6) (by decide) (by decide) a
  have h₁ : ((a &&& 0x03) <<< 4).toNat = 16 * (a.toNat % 4) :=
    toNat_and_shiftLeft (w := 2) (by decide) (by decide) (by decide) a
  have h₁' : ((b &&& 0xf0) >>> 4).toNat = b.toNat / 16 % 16 :=
    toNat_and_shiftRight (w := 4) (by decide) (by decide) b
  have h₂ : ((b &&& 0x0f) <<< 2).toNat = 4 * (b.toNat % 16) :=
    toNat_and_shiftLeft (w := 4) (by decide) (by decide) (by decide) b
  have h₂' : ((c &&& 0xc0) >>> 6).toNat = c.toNat / 64 % 4 :=
    toNat_and_shiftRight (w := 2) (by decide) (by decide) c
  have htake : (setIndices #v[a, b, c] charArray4).toList.take 3
      = [(a &&& 0xfc) >>> 2, ((a &&& 0x03) <<< 4) + ((b &&& 0xf0) >>> 4),
        ((b &&& 0x0f) <<< 2) + ((c &&& 0xc0) >>> 6)] := by
    obtain ⟨⟨l⟩, hl⟩ := charArray4
    obtain ⟨p, q, r, t, rfl⟩ := List.length_eq_four.mp hl
    rfl
  show _ = (Base64.digits 4 (Base64.groupValue [a, b, c])).take 3
  rw [htake, Base64.digits_groupValue_three]
  simp only [List.map_cons, List.map_nil, UInt8.toNat_add, h₀, h₁, h₁', h₂, h₂',
    List.take_succ_cons, List.take_zero]
  congr 1
  · omega
  · congr 1
    · omega
    · congr 1
      omega

/-! ## The loops inside -/

theorem getElem?_base64Chars {n : ℕ} (h : n < 64) : base64Chars[n]? = some (Base64.char n) := by
  have hn : n < Base64.alphabet.length := by rwa [Base64.length_alphabet]
  rw [Base64.char_eq_getElem hn]
  exact List.getElem?_eq_getElem hn

theorem take_succ_set {α : Type*} {l : List α} {i : ℕ} (h : i < l.length) (a : α) :
    (l.set i a).take (i + 1) = l.take i ++ [a] := by
  have hset : i < (l.set i a).length := by rwa [List.length_set]
  rw [List.take_succ_eq_append_getElem hset, List.getElem_set_self, List.take_set_of_le le_rfl]

/-- What the loop over the characters writes. -/
theorem appendChars_eq {charArray4 : Vector UInt8 4} {stop start : ℕ} {result : Bytes}
    (hstart : start ≤ stop) (hstop : stop ≤ 4)
    (h : ∀ index ∈ charArray4.toList.take stop, index.toNat < 64) :
    appendChars charArray4 stop start result
      = some (result ++ ((charArray4.toList.take stop).drop start).map
          fun index => Base64.char index.toNat) := by
  fun_induction appendChars charArray4 stop start result with
  | case1 start result hlt ih =>
    have hlen : start < (charArray4.toList.take stop).length := by simp; omega
    have hget : (charArray4.toList.take stop)[start] = charArray4[start] := by simp
    have hindex : charArray4[start].toNat < 64 := h _ (hget ▸ List.getElem_mem hlen)
    rw [Vector.getElem?_eq_getElem (by omega)]
    show (base64Chars[charArray4[start].toNat]?).bind _ = _
    rw [getElem?_base64Chars hindex, Option.bind_some, ih _ (by omega),
      List.drop_eq_getElem_cons hlen, hget, List.map_cons, List.append_assoc]
    rfl
  | case2 start result hge =>
    obtain rfl : start = stop := by omega
    rw [List.drop_take_self, List.map_nil, List.append_nil]

/-- What the loop over the padding writes. -/
theorem padResult_eq (i : ℕ) (result : Bytes) :
    padResult i result = result ++ List.replicate (3 - i) Base64.pad := by
  fun_induction padResult i result with
  | case1 i result hlt ih =>
    rw [ih, List.append_assoc, show 3 - i = 3 - (i + 1) + 1 by omega]
    rfl
  | case2 i result hge =>
    rw [Nat.sub_eq_zero_of_le (by omega), List.replicate_zero, List.append_nil]

/-- What is behind the octets of an incomplete group. -/
theorem toList_zeroFill {start : ℕ} (h : start ≤ 3) (charArray3 : Vector UInt8 3) :
    (zeroFill start charArray3).toList
      = charArray3.toList.take start ++ List.replicate (3 - start) 0 := by
  fun_induction zeroFill start charArray3 with
  | case1 start charArray3 hlt ih =>
    have hlen : start < charArray3.toList.length := by simpa using hlt
    rw [ih hlt, Vector.toList_set, take_succ_set hlen, List.append_assoc,
      show 3 - start = 3 - (start + 1) + 1 by omega]
    rfl
  | case2 start charArray3 hge =>
    obtain rfl : start = 3 := by omega
    rw [Nat.sub_self, List.replicate_zero, List.append_nil, List.take_of_length_le (by simp)]

/-- The characters of the digits that are in `char_array_4`. -/
theorem appendChars_digits {charArray4 : Vector UInt8 4} {w n : ℕ} (hw : w ≤ 4)
    (h : (charArray4.toList.take w).map UInt8.toNat = Base64.digits w n) (result : Bytes) :
    appendChars charArray4 w 0 result = some (result ++ (Base64.digits w n).map Base64.char) := by
  have hlt : ∀ index ∈ charArray4.toList.take w, index.toNat < 64 :=
    fun index hindex => Base64.lt_of_mem_digits (h ▸ List.mem_map_of_mem hindex)
  rw [appendChars_eq (Nat.zero_le w) hw hlt, List.drop_zero, ← h, List.map_map]
  rfl

/-- The digits of a full group. -/
theorem take_indices_full (charArray3 : Vector UInt8 3) (charArray4 : Vector UInt8 4) :
    (((setIndices charArray3 charArray4).set 3 (charArray3[2] &&& 0x3f)).toList.take 4).map
        UInt8.toNat
      = Base64.digits 4 (Base64.groupValue charArray3.toList) := by
  obtain ⟨a, b, c, rfl⟩ := exists_eq_vec3 charArray3
  have hlast : (c &&& 0x3f).toNat = c.toNat % 64 := by
    rw [UInt8.toNat_and]
    exact Nat.and_two_pow_sub_one_eq_mod c.toNat 6
  have htake : ((setIndices #v[a, b, c] charArray4).set 3 (c &&& 0x3f)).toList.take 4
      = (setIndices #v[a, b, c] charArray4).toList.take 3 ++ [c &&& 0x3f] := by
    rw [Vector.toList_set, take_succ_set (by simp)]
  calc (((setIndices #v[a, b, c] charArray4).set 3 (c &&& 0x3f)).toList.take 4).map UInt8.toNat
      = ((setIndices #v[a, b, c] charArray4).toList.take 3).map UInt8.toNat
          ++ [(c &&& 0x3f).toNat] := by rw [htake, List.map_append, List.map_singleton]
    _ = Base64.digits 4 (Base64.groupValue [a, b, c]) := by
      rw [take_setIndices, hlast]
      show (Base64.digits 4 (Base64.groupValue [a, b, c])).take 3 ++ _ = _
      rw [Base64.digits_groupValue_three]
      rfl

/-- **A full group** is written. -/
theorem Base64State.flush_eq (s : Base64State) :
    s.flush = some { s with
      i := 0
      charArray4 := (setIndices s.charArray3 s.charArray4).set 3 (s.charArray3[2] &&& 0x3f)
      result := s.result ++ Base64.encodeGroup s.charArray3.toList } := by
  have hquad : Base64.encodeGroup s.charArray3.toList
      = (Base64.digits 4 (Base64.groupValue s.charArray3.toList)).map Base64.char := by
    rw [Base64.encodeGroup, Vector.length_toList]
    exact List.append_nil _
  rw [flush, hquad]
  show (appendChars _ 4 0 s.result).bind _ = _
  rw [appendChars_digits le_rfl (take_indices_full s.charArray3 s.charArray4)]
  rfl

/-- The digits of an incomplete group, with zeros behind its octets. -/
theorem take_indices_rest {charArray3 : Vector UInt8 3} {group : Bytes} (hlt : group.length < 3)
    (h : charArray3.toList = group ++ List.replicate (3 - group.length) 0)
    (charArray4 : Vector UInt8 4) :
    ((setIndices charArray3 charArray4).toList.take (group.length + 1)).map UInt8.toNat
      = Base64.digits (group.length + 1) (Base64.groupValue group) := by
  have hlen : (Base64.digits (group.length + 1) (Base64.groupValue group)).length
      = group.length + 1 := Base64.length_digits (Base64.groupValue_lt (by omega))
  have hmin : min (group.length + 1) 3 = group.length + 1 := by omega
  calc ((setIndices charArray3 charArray4).toList.take (group.length + 1)).map UInt8.toNat
      = (((setIndices charArray3 charArray4).toList.take 3).map UInt8.toNat).take
          (group.length + 1) := by rw [← List.map_take, List.take_take, hmin]
    _ = (Base64.digits 4 (Base64.groupValue charArray3.toList)).take (group.length + 1) := by
      rw [take_setIndices, List.take_take, hmin]
    _ = Base64.digits (group.length + 1) (Base64.groupValue group) := by
      rw [h, Base64.digits_groupValue_append (by omega), List.take_left' hlen]

/-- **An incomplete group.** -/
theorem appendChars_rest {charArray3 : Vector UInt8 3} {group : Bytes} (hlt : group.length < 3)
    (h : charArray3.toList = group ++ List.replicate (3 - group.length) 0)
    (charArray4 : Vector UInt8 4) (result : Bytes) :
    (appendChars (setIndices charArray3 charArray4) (group.length + 1) 0 result).map
        (padResult group.length)
      = some (result ++ Base64.encodeGroup group) := by
  rw [appendChars_digits (by omega) (take_indices_rest hlt h charArray4), Option.map_some,
    padResult_eq, List.append_assoc, Base64.encodeGroup]

/-! ## The loop -/

/-- The loop invariant: the groups that are complete have been written, and the octets of the
next one are at the front of `char_array_3`. -/
structure Base64State.Holds (s : Base64State) (written group : Bytes) : Prop where
  i_eq : s.i = group.length
  length_lt : group.length < 3
  take_eq : s.charArray3.toList.take group.length = group
  result_eq : s.result = written

namespace Base64State.Holds

variable {s : Base64State} {written group : Bytes}

theorem take_set (h : s.Holds written group) (b : UInt8) (hi : s.i < 3) :
    (s.charArray3.set s.i b).toList.take (group.length + 1) = group ++ [b] := by
  have hlen : group.length < s.charArray3.toList.length := by simpa using h.length_lt
  have hset : (s.charArray3.set s.i b).toList = s.charArray3.toList.set group.length b := by
    rw [Vector.toList_set, h.i_eq]
  rw [hset, take_succ_set hlen, h.take_eq]

/-- An octet that leaves the group incomplete is kept. -/
theorem push_of_lt (h : s.Holds written group) (b : UInt8) (hlt : group.length < 2) :
    ∃ s', s.push b = some s' ∧ s'.Holds written (group ++ [b]) := by
  have hi : s.i < 3 := h.i_eq ▸ h.length_lt
  have hlen : (group ++ [b]).length = group.length + 1 := List.length_append
  have hne : s.i + 1 ≠ 3 := by rw [h.i_eq]; omega
  refine ⟨{ s with i := s.i + 1, charArray3 := s.charArray3.set s.i b }, ?_,
    ⟨?_, by omega, ?_, h.result_eq⟩⟩
  · rw [push, dif_pos hi]
    exact if_neg hne
  · rw [hlen]
    exact congrArg (· + 1) h.i_eq
  · rw [hlen]
    exact h.take_set b hi

/-- The octet that completes the group has it written. -/
theorem push_of_eq (h : s.Holds written group) (b : UInt8) (heq : group.length = 2) :
    ∃ s', s.push b = some s' ∧ s'.Holds (written ++ Base64.encodeGroup (group ++ [b])) [] := by
  have hi : s.i < 3 := h.i_eq ▸ h.length_lt
  have hfull : (s.charArray3.set s.i b).toList = group ++ [b] := by
    rw [← h.take_set b hi, heq, List.take_of_length_le (by simp)]
  have h3 : s.i + 1 = 3 := by rw [h.i_eq, heq]
  have hpush : s.push b = Base64State.flush
      { s with i := s.i + 1, charArray3 := s.charArray3.set s.i b } := by
    rw [push, dif_pos hi]
    exact if_pos h3
  refine ⟨_, hpush.trans (Base64State.flush_eq _), ⟨rfl, by decide, rfl, ?_⟩⟩
  show s.result ++ Base64.encodeGroup (s.charArray3.set s.i b).toList = _
  rw [h.result_eq, hfull]

/-- **The run**: what has been written and what is held is what has been read. -/
theorem foldlM_push (h : s.Holds written group) (x : Bytes) :
    ∃ s' written' group', x.foldlM Base64State.push s = some s' ∧ s'.Holds written' group'
      ∧ written' ++ Base64.encode group' = written ++ Base64.encode (group ++ x) := by
  induction x generalizing s written group with
  | nil => exact ⟨s, written, group, rfl, h, by rw [List.append_nil]⟩
  | cons b x ih =>
    have hlen := h.length_lt
    by_cases heq : group.length = 2
    · obtain ⟨s₁, hpush, hholds⟩ := h.push_of_eq b heq
      obtain ⟨s', written', group', hrun, h', hx⟩ := ih hholds
      refine ⟨s', written', group', ?_, h', ?_⟩
      · rw [List.foldlM_cons, hpush]
        exact hrun
      · have hgroup : (group ++ [b]).length = 3 := by
          rw [List.length_append, heq, List.length_singleton]
        rw [hx, List.append_cons group b x, Base64.encode_append hgroup, List.nil_append,
          List.append_assoc]
    · obtain ⟨s₁, hpush, hholds⟩ := h.push_of_lt b (by omega)
      obtain ⟨s', written', group', hrun, h', hx⟩ := ih hholds
      refine ⟨s', written', group', ?_, h', ?_⟩
      · rw [List.foldlM_cons, hpush]
        exact hrun
      · rw [hx, List.append_cons group b x]

/-- What is held when the loop ends is written, with its padding. -/
theorem finish (h : s.Holds written group) :
    s.finish = some (written ++ Base64.encode group) := by
  have hlt := h.length_lt
  by_cases hi : s.i ≠ 0
  · have hpos : 0 < group.length := by rw [← h.i_eq]; omega
    have hzero : (zeroFill group.length s.charArray3).toList
        = group ++ List.replicate (3 - group.length) 0 := by
      rw [toList_zeroFill (by omega), h.take_eq]
    have hrest := appendChars_rest hlt hzero s.charArray4 s.result
    rw [Base64State.finish, if_pos hi, h.i_eq, Base64.encode_of_length_le hpos (by omega),
      ← h.result_eq, ← hrest, Option.map_eq_bind]
    rfl
  · obtain rfl : group = [] := List.length_eq_zero_iff.mp (by rw [← h.i_eq]; omega)
    rw [Base64State.finish, if_neg hi, h.result_eq, Base64.encode, List.append_nil]

end Base64State.Holds

/-- **The function encodes**, whatever the arrays hold at the beginning, and it stays within
them. -/
theorem base64Encode_eq (charArray3 : Vector UInt8 3) (charArray4 : Vector UInt8 4)
    (x : Bytes) : base64Encode charArray3 charArray4 x = some (Base64.encode x) := by
  have hstart : Base64State.Holds { i := 0, charArray3, charArray4, result := [] } [] [] :=
    ⟨rfl, by decide, rfl, rfl⟩
  obtain ⟨s, written, group, hrun, h, hx⟩ := hstart.foldlM_push x
  rw [base64Encode, hrun]
  show s.finish = _
  rw [h.finish, hx]
  rfl

example : Base64.encode (lit "foob") = lit "Zm9vYg==" := rfl

/-! ## The accept value -/

/-- The identifier that the protocol has appended to a key. -/
def websocketGuid : Bytes := lit "258EAFA5-E914-47DA-95CA-C5AB0DC85B11"

/-- The value that the protocol requires of the server: the digest of the key and the
identifier, in base64. -/
def requiredAccept (SHA1 : Bytes → Vector UInt8 20) (key : Bytes) : Bytes :=
  Base64.encode (SHA1 (key ++ websocketGuid)).toList

theorem computeAccept_eq (SHA1 : Bytes → Vector UInt8 20) (charArray3 : Vector UInt8 3)
    (charArray4 : Vector UInt8 4) (key : Bytes) :
    computeAccept SHA1 charArray3 charArray4 key = some (requiredAccept SHA1 key) :=
  base64Encode_eq charArray3 charArray4 _

/-- **The encoder is the standard one**: four characters for every three octets begun, all of
them of the alphabet but for the padding, and the standard decoder takes this text and no other
to the octets. So two sequences are never given the same text, and the accept value is the one
that the protocol requires. -/
theorem base64Encode_standard (x : Bytes) :
    (∃ text, (∀ charArray3 charArray4, base64Encode charArray3 charArray4 x = some text)
      ∧ text.length = 4 * ((x.length + 2) / 3)
      ∧ (∃ body, (∀ c ∈ body, c ∈ Base64.alphabet)
          ∧ text = body ++ List.replicate ((3 - x.length % 3) % 3) Base64.pad)
      ∧ Base64.decode text = some x
      ∧ (∀ text', Base64.decode text' = some x → text' = text)
      ∧ ∀ charArray3 charArray4 y, base64Encode charArray3 charArray4 y = some text → y = x)
    ∧ ∀ SHA1 charArray3 charArray4 key,
        computeAccept SHA1 charArray3 charArray4 key = some (requiredAccept SHA1 key) := by
  refine ⟨⟨Base64.encode x, fun charArray3 charArray4 => base64Encode_eq charArray3 charArray4 x,
    Base64.length_encode x, Base64.exists_encode_eq_append x, Base64.decode_encode x,
    fun text' htext => ?_, fun charArray3 charArray4 y hy => ?_⟩, computeAccept_eq⟩
  · exact (Base64.decode_eq_some_iff.mp htext).symm
  · rw [base64Encode_eq] at hy
    exact Base64.encode_injective (Option.some.inj hy)

/-! ## The response -/

theorem newline_notMem_encode (x : Bytes) : 0x0A ∉ Base64.encode x := by
  obtain ⟨body, hbody, hx⟩ := Base64.exists_encode_eq_append x
  rw [hx, List.mem_append, not_or]
  refine ⟨fun h => ?_, fun h => ?_⟩
  · exact absurd (hbody _ h) (by decide)
  · exact absurd (List.eq_of_mem_replicate h) (by decide)

/-- **No key adds a line to the response**, whatever octets it is made of: the response is the
status line, three header fields and the empty line, and the last of the fields has the value
that the protocol requires. -/
theorem handshakeResponse_lines (SHA1 : Bytes → Vector UInt8 20) (charArray3 : Vector UInt8 3)
    (charArray4 : Vector UInt8 4) (key : Bytes) :
    (handshakeResponse SHA1 charArray3 charArray4 key).map (List.splitOn 0x0A)
      = some [lit "HTTP/1.1 101 Switching Protocols\r", lit "Upgrade: websocket\r",
        lit "Connection: Upgrade\r",
        lit "Sec-WebSocket-Accept: " ++ requiredAccept SHA1 key ++ lit "\r", lit "\r", []] := by
  have haccept : 0x0A ∉ requiredAccept SHA1 key := newline_notMem_encode _
  have hstatus : lit "HTTP/1.1 101 Switching Protocols\r\n"
      = lit "HTTP/1.1 101 Switching Protocols\r" ++ [0x0A] := rfl
  have hupgrade : lit "Upgrade: websocket\r\n" = lit "Upgrade: websocket\r" ++ [0x0A] := rfl
  have hconnection : lit "Connection: Upgrade\r\n" = lit "Connection: Upgrade\r" ++ [0x0A] := rfl
  have hend : lit "\r\n" = lit "\r" ++ [0x0A] := rfl
  rw [handshakeResponse, computeAccept_eq]
  refine congrArg some (Eq.trans (congrArg _ ?_) (List.splitOn_intercalate 0x0A ?_ (by simp)))
  · rw [hstatus, hupgrade, hconnection, hend]
    simp only [List.intercalate, List.intersperse, List.flatten_cons, List.flatten_nil,
      List.append_assoc, List.append_nil]
  · simp only [List.forall_mem_cons, List.mem_append, not_or]
    refine ⟨by decide, by decide, by decide, ⟨⟨by decide, haccept⟩, by decide⟩, by decide,
      by decide, fun line hline => absurd hline List.not_mem_nil⟩
