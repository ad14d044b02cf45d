import HttpServer.Endian
import Mathlib.Data.Nat.Digits.Lemmas

/-!
# Base64

The standard base64 encoding of octets, and its decoder. A *group* of one to three octets is
written as the digits of its number in base 64: `k` octets fill `k + 1` digits when zero bits are
put behind them, two for each octet that the group lacks, and for each octet that it lacks there
is an equals sign in place of a fourth digit. The octets of a text are cut into groups of three,
and only the last group may be shorter.

The decoder is the strict one. It takes a text in quads, knows no character outside of the
alphabet, allows padding in the last quad only, and wants the bits that the padding stands for
to be zero. What it accepts is therefore exactly what the encoder writes
(`decode_eq_some_iff`).
-/

namespace Base64

/-! ## The alphabet -/

/-- The characters of the sixty-four digits. -/
def alphabet : List UInt8 :=
  "ABCDEFGHIJKLMNOPQRSTUVWXYZabcdefghijklmnopqrstuvwxyz0123456789+/".toList.map
    fun c => UInt8.ofNat c.toNat

/-- The equals sign. -/
def pad : UInt8 := 0x3D

/-- The character of a digit. -/
def char (n : ℕ) : UInt8 := alphabet.getD n pad

/-- The digit of a character. -/
def sextet (c : UInt8) : Option ℕ := if c ∈ alphabet then some (alphabet.idxOf c) else none

@[simp] theorem length_alphabet : alphabet.length = 64 := by decide

theorem nodup_alphabet : alphabet.Nodup := by decide

/-- A character or a pad: no text can be read in both ways. -/
theorem pad_notMem_alphabet : pad ∉ alphabet := by decide

theorem char_eq_getElem {n : ℕ} (h : n < alphabet.length) : char n = alphabet[n] :=
  (List.getElem_eq_getD pad).symm

/-- A sextet is written with a character of the alphabet. -/
theorem char_mem_alphabet {n : ℕ} (h : n < 64) : char n ∈ alphabet := by
  rw [char_eq_getElem (by rwa [length_alphabet])]
  exact List.getElem_mem _

/-- So it is never taken for a pad. -/
theorem char_ne_pad {n : ℕ} (h : n < 64) : char n ≠ pad := fun heq =>
  pad_notMem_alphabet (heq ▸ char_mem_alphabet h)

/-- **A character is read back** as the sextet that it was written for. -/
theorem sextet_char {n : ℕ} (h : n < 64) : sextet (char n) = some n := by
  have hn : n < alphabet.length := by rwa [length_alphabet]
  rw [sextet, if_pos (char_mem_alphabet h), char_eq_getElem hn, nodup_alphabet.idxOf_getElem]

/-- And a sextet that was read is written with the same character. -/
theorem of_sextet {c : UInt8} {n : ℕ} (h : sextet c = some n) : n < 64 ∧ char n = c := by
  unfold sextet at h
  split at h
  · rename_i hc
    obtain rfl := Option.some.inj h
    have hlt : alphabet.idxOf c < alphabet.length := List.idxOf_lt_length_of_mem hc
    exact ⟨by rwa [length_alphabet] at hlt, by rw [char_eq_getElem hlt, List.getElem_idxOf]⟩
  · cases h

/-- The same for a list of sextets. -/
theorem mapM_sextet_map_char {l : List ℕ} (h : ∀ s ∈ l, s < 64) :
    (l.map char).mapM sextet = some l := by
  induction l with
  | nil => rfl
  | cons s l ih =>
    rw [List.forall_mem_cons] at h
    rw [List.map_cons, List.mapM_cons, sextet_char h.1, ih h.2]
    rfl

/-- The same for a text without pads. -/
theorem of_mapM_sextet {body : List UInt8} {l : List ℕ} (h : body.mapM sextet = some l) :
    (∀ s ∈ l, s < 64) ∧ l.map char = body := by
  induction body generalizing l with
  | nil =>
    obtain rfl := Option.some.inj h
    exact ⟨fun s hs => absurd hs List.not_mem_nil, rfl⟩
  | cons c body ih =>
    rw [List.mapM_cons] at h
    obtain ⟨s, hs, h⟩ := Option.bind_eq_some_iff.mp h
    obtain ⟨l', hl', h⟩ := Option.bind_eq_some_iff.mp h
    obtain rfl := Option.some.inj h
    obtain ⟨hlt, hchar⟩ := of_sextet hs
    obtain ⟨hlt', hmap⟩ := ih hl'
    exact ⟨List.forall_mem_cons.mpr ⟨hlt, hlt'⟩, by rw [List.map_cons, hchar, hmap]⟩

/-! ## Numbers in base 64 -/

/-- The number with the given digits, the most significant one first. -/
def value (l : List ℕ) : ℕ := Nat.ofDigits 64 l.reverse

/-- The digits of a number below `64 ^ w`, `w` of them, the most significant one first. -/
def digits (w n : ℕ) : List ℕ := (Nat.digitsAppend 64 w n).reverse

@[simp] theorem value_nil : value [] = 0 := rfl

/-- Sextets behind others shift these to the left. -/
theorem value_append (l l' : List ℕ) :
    value (l ++ l') = 64 ^ l'.length * value l + value l' := by
  rw [value, List.reverse_append, Nat.ofDigits_append, List.length_reverse, Nat.add_comm, value,
    value]

/-- The first sextet counts most. -/
@[simp] theorem value_cons (s : ℕ) (l : List ℕ) :
    value (s :: l) = 64 ^ l.length * s + value l := by
  rw [← List.singleton_append, value_append, value, List.reverse_singleton, Nat.ofDigits_singleton]

/-- Sextets that are zero count for nothing in front. -/
theorem value_replicate_zero (m : ℕ) : value (List.replicate m 0) = 0 := by
  rw [value, List.reverse_replicate, Nat.ofDigits_replicate_zero]

theorem length_digits {w n : ℕ} (h : n < 64 ^ w) : (digits w n).length = w := by
  rw [digits, List.length_reverse, Nat.length_digitsAppend (by decide) w h]

/-- The digits are sextets. -/
theorem lt_of_mem_digits {w n s : ℕ} (h : s ∈ digits w n) : s < 64 :=
  Nat.lt_of_mem_digitsAppend (by decide) w s (List.mem_reverse.mp h)

/-- A number has no more digits in base 64 than there are sextets. -/
theorem value_lt {l : List ℕ} (h : ∀ s ∈ l, s < 64) : value l < 64 ^ l.length := by
  rw [value, ← List.length_reverse]
  exact Nat.ofDigits_lt_base_pow_length (by decide) fun s hs => h s (List.mem_reverse.mp hs)

/-- A number is read back from its digits. -/
theorem value_digits {w n : ℕ} (h : n < 64 ^ w) : value (digits w n) = n := by
  rw [value, digits, List.reverse_reverse]
  exact (Nat.setInvOn_digitsAppend_ofDigits (by decide) w).2 h

/-- And sextets from their number. -/
theorem digits_value {l : List ℕ} (h : ∀ s ∈ l, s < 64) : digits l.length (value l) = l := by
  have hmem : l.reverse ∈ {L : List ℕ | L.length = l.length ∧ ∀ s ∈ L, s < 64} :=
    ⟨List.length_reverse, fun s hs => h s (List.mem_reverse.mp hs)⟩
  rw [value, digits, (Nat.setInvOn_digitsAppend_ofDigits (by decide) l.length).1 hmem,
    List.reverse_reverse]

/-- Sextets are the digits of their number: how a group is recognised. -/
theorem digits_eq_of_value {l : List ℕ} {w n : ℕ} (hlen : l.length = w) (h : ∀ s ∈ l, s < 64)
    (hn : value l = n) : digits w n = l := by
  rw [← hlen, ← hn, digits_value h]

/-- A multiple has the digits of the number, and zeros behind them. -/
theorem digits_mul_pow {w n : ℕ} (h : n < 64 ^ w) (m : ℕ) :
    digits (w + m) (n * 64 ^ m) = digits w n ++ List.replicate m 0 := by
  refine digits_eq_of_value ?_ ?_ ?_
  · rw [List.length_append, length_digits h, List.length_replicate]
  · intro s hs
    rcases List.mem_append.mp hs with hs | hs
    · exact lt_of_mem_digits hs
    · rw [List.eq_of_mem_replicate hs]
      decide
  · rw [value_append, value_digits h, value_replicate_zero, List.length_replicate, Nat.add_zero,
      Nat.mul_comm]

/-! ## Encoding -/

/-- The number that a group is written as: zero bits fill its last digit up. -/
def groupValue (group : List UInt8) : ℕ := BigEndian.value group * 4 ^ (3 - group.length)

/-- The quad of a group of one to three octets. -/
def encodeGroup (group : List UInt8) : List UInt8 :=
  (digits (group.length + 1) (groupValue group)).map char
    ++ List.replicate (3 - group.length) pad

/-- The text of a sequence of octets. -/
def encode : List UInt8 → List UInt8
  | [] => []
  | [a] => encodeGroup [a]
  | [a, b] => encodeGroup [a, b]
  | a :: b :: c :: x => encodeGroup [a, b, c] ++ encode x

/-- `k` octets and the zero bits behind them are `k + 1` digits. -/
theorem pow_group {k : ℕ} (h : k ≤ 3) : 256 ^ k * 4 ^ (3 - k) = 64 ^ (k + 1) := by
  obtain rfl | rfl | rfl | rfl : k = 0 ∨ k = 1 ∨ k = 2 ∨ k = 3 := by omega
  all_goals rfl

/-- The bits of a group fit into one sextet more than it has octets. -/
theorem groupValue_lt {group : List UInt8} (h : group.length ≤ 3) :
    groupValue group < 64 ^ (group.length + 1) := by
  rw [groupValue, ← pow_group h]
  exact Nat.mul_lt_mul_of_pos_right (BigEndian.value_lt group) (by positivity)

/-- The digits of a full group. -/
theorem digits_groupValue_three (a b c : UInt8) :
    digits 4 (groupValue [a, b, c])
      = [a.toNat / 4, 16 * (a.toNat % 4) + b.toNat / 16, 4 * (b.toNat % 16) + c.toNat / 64,
        c.toNat % 64] := by
  have ha : a.toNat < 256 := a.toNat_lt
  have hb : b.toNat < 256 := b.toNat_lt
  have hc : c.toNat < 256 := c.toNat_lt
  refine digits_eq_of_value rfl ?_ ?_
  · simp only [List.mem_cons, List.not_mem_nil, or_false, forall_eq_or_imp, forall_eq]
    omega
  · simp only [groupValue, BigEndian.value_cons, BigEndian.value_nil, value_cons, value_nil,
      List.length_cons, List.length_nil, zero_add, Nat.reduceAdd, Nat.reducePow, pow_one, pow_zero,
      one_mul, add_zero, tsub_self, mul_one]
    omega

/-- **An incomplete group** has the digits of the full one that it becomes with octets of zeros
behind it, but for the last of them. -/
theorem digits_groupValue_append {group : List UInt8} (h : group.length ≤ 3) :
    digits 4 (groupValue (group ++ List.replicate (3 - group.length) 0))
      = digits (group.length + 1) (groupValue group)
        ++ List.replicate (3 - group.length) 0 := by
  have hfull : (group ++ List.replicate (3 - group.length) (0 : UInt8)).length = 3 := by
    rw [List.length_append, List.length_replicate]
    omega
  have hpow : 256 ^ (3 - group.length) = 4 ^ (3 - group.length) * 64 ^ (3 - group.length) :=
    mul_pow 4 64 (3 - group.length)
  have hvalue : groupValue (group ++ List.replicate (3 - group.length) 0)
      = groupValue group * 64 ^ (3 - group.length) := by
    rw [groupValue, groupValue, hfull, BigEndian.value_append, BigEndian.value_replicate_zero,
      List.length_replicate, Nat.sub_self, pow_zero, Nat.mul_one, Nat.add_zero, hpow]
    ring
  rw [hvalue, ← digits_mul_pow (groupValue_lt h)]
  congr 1
  omega

/-- Every group is four characters, pads included. -/
theorem length_encodeGroup {group : List UInt8} (h : group.length ≤ 3) :
    (encodeGroup group).length = 4 := by
  rw [encodeGroup, List.length_append, List.length_map, length_digits (groupValue_lt h),
    List.length_replicate]
  omega

theorem map_char_subset_alphabet {l : List ℕ} (h : ∀ s ∈ l, s < 64) :
    ∀ c ∈ l.map char, c ∈ alphabet := by
  intro c hc
  obtain ⟨s, hs, rfl⟩ := List.mem_map.mp hc
  exact char_mem_alphabet (h s hs)

/-- A whole group is encoded by itself. -/
theorem encode_append {group : List UInt8} (h : group.length = 3) (x : List UInt8) :
    encode (group ++ x) = encodeGroup group ++ encode x := by
  obtain ⟨a, b, c, rfl⟩ := List.length_eq_three.mp h
  rfl

/-- A sequence that is no longer than a group is one. -/
theorem encode_of_length_le {group : List UInt8} (hpos : 0 < group.length)
    (h : group.length ≤ 3) : encode group = encodeGroup group := by
  match group, hpos, h with
  | [_], _, _ => rfl
  | [_, _], _, _ => rfl
  | [_, _, _], _, _ => rw [encode, encode, List.append_nil]

/-- **The length of a text**: four characters for every three octets begun. -/
theorem length_encode (x : List UInt8) : (encode x).length = 4 * ((x.length + 2) / 3) := by
  induction x using encode.induct with
  | case1 => rfl
  | case2 a => simp [encode, length_encodeGroup]
  | case3 a b => simp [encode, length_encodeGroup]
  | case4 a b c x ih =>
    rw [encode, List.length_append, ih, length_encodeGroup (by simp)]
    simp only [List.length_cons]
    omega

/-- **The form of a text**: characters of the alphabet, and then padding for the octets that
the last group lacks. -/
theorem exists_encode_eq_append (x : List UInt8) :
    ∃ body, (∀ c ∈ body, c ∈ alphabet)
      ∧ encode x = body ++ List.replicate ((3 - x.length % 3) % 3) pad := by
  induction x using encode.induct with
  | case1 => exact ⟨[], fun c hc => absurd hc List.not_mem_nil, rfl⟩
  | case2 a => exact ⟨_, map_char_subset_alphabet fun _ => lt_of_mem_digits, rfl⟩
  | case3 a b => exact ⟨_, map_char_subset_alphabet fun _ => lt_of_mem_digits, rfl⟩
  | case4 a b c x ih =>
    obtain ⟨body, hbody, hx⟩ := ih
    have hlen : (a :: b :: c :: x).length % 3 = x.length % 3 := Nat.add_mod_right x.length 3
    refine ⟨(digits 4 (groupValue [a, b, c])).map char ++ body, ?_, ?_⟩
    · intro d hd
      rcases List.mem_append.mp hd with hd | hd
      · exact map_char_subset_alphabet (fun _ => lt_of_mem_digits) d hd
      · exact hbody d hd
    · rw [encode, hx, hlen, ← List.append_assoc]
      exact congrArg (· ++ _ ++ _) (List.append_nil _)

/-! ## Decoding -/

/-- The `k` octets of `k + 1` characters. -/
def decodeGroup (k : ℕ) (body : List UInt8) : Option (List UInt8) := do
  let l ← body.mapM sextet
  if value l % 4 ^ (3 - k) = 0 then some (BigEndian.digits k (value l / 4 ^ (3 - k))) else none

/-- The octets of a last quad, which may be padded. -/
def decodeLast (c₀ c₁ c₂ c₃ : UInt8) : Option (List UInt8) :=
  if c₃ = pad then
    if c₂ = pad then decodeGroup 1 [c₀, c₁] else decodeGroup 2 [c₀, c₁, c₂]
  else decodeGroup 3 [c₀, c₁, c₂, c₃]

/-- The octets of a text, where it is one. -/
def decode : List UInt8 → Option (List UInt8)
  | [] => some []
  | [c₀, c₁, c₂, c₃] => decodeLast c₀ c₁ c₂ c₃
  | c₀ :: c₁ :: c₂ :: c₃ :: text => do
    let group ← decodeGroup 3 [c₀, c₁, c₂, c₃]
    let x ← decode text
    return group ++ x
  | _ => none

/-- **A group is written in one way**: the decoder takes the characters that the encoder writes
for it and no others. -/
theorem decodeGroup_eq_some_iff {k : ℕ} {body group : List UInt8} (hk : k ≤ 3)
    (hbody : body.length = k + 1) :
    decodeGroup k body = some group ↔
      group.length = k ∧ encodeGroup group = body ++ List.replicate (3 - k) pad := by
  have hpos : 0 < 4 ^ (3 - k) := by positivity
  constructor
  · intro h
    obtain ⟨l, hl, h⟩ := Option.bind_eq_some_iff.mp h
    obtain ⟨hlt, hmap⟩ := of_mapM_sextet hl
    have hlen : l.length = k + 1 := by rw [← hbody, ← hmap, List.length_map]
    split at h
    · rename_i hmod
      obtain rfl := Option.some.inj h
      have hvalue : value l < 256 ^ k * 4 ^ (3 - k) := by
        rw [pow_group hk, ← hlen]
        exact value_lt hlt
      have hgroup : groupValue (BigEndian.digits k (value l / 4 ^ (3 - k))) = value l := by
        rw [groupValue, BigEndian.length_digits,
          BigEndian.value_digits_of_lt (Nat.div_lt_of_lt_mul (by rwa [Nat.mul_comm])),
          Nat.div_mul_cancel (Nat.dvd_of_mod_eq_zero hmod)]
      refine ⟨BigEndian.length_digits _ _, ?_⟩
      rw [encodeGroup, hgroup, BigEndian.length_digits, ← hlen, digits_value hlt, hmap]
    · cases h
  · rintro ⟨rfl, h⟩
    obtain rfl := List.append_cancel_right h
    have hmul : groupValue group = BigEndian.value group * 4 ^ (3 - group.length) := rfl
    rw [decodeGroup, mapM_sextet_map_char fun _ => lt_of_mem_digits]
    show (if value _ % _ = 0 then _ else _) = _
    rw [value_digits (groupValue_lt hk), hmul, Nat.mul_mod_left, if_pos rfl,
      Nat.mul_div_cancel _ hpos, BigEndian.digits_value]

/-- A quad can be told apart: its characters, and the padding behind them. -/
theorem encodeGroup_eq {group : List UInt8} (h : group.length ≤ 3) :
    ∃ body : List UInt8, body.length = group.length + 1 ∧ (∀ c ∈ body, c ≠ pad)
      ∧ encodeGroup group = body ++ List.replicate (3 - group.length) pad := by
  refine ⟨(digits (group.length + 1) (groupValue group)).map char, ?_, ?_, rfl⟩
  · rw [List.length_map, length_digits (groupValue_lt h)]
  · intro c hc
    obtain ⟨s, hs, rfl⟩ := List.mem_map.mp hc
    exact char_ne_pad (lt_of_mem_digits hs)

/-- The last quad is that of one, two or three octets. -/
theorem decodeLast_eq_some_iff {c₀ c₁ c₂ c₃ : UInt8} {x : List UInt8} :
    decodeLast c₀ c₁ c₂ c₃ = some x ↔
      0 < x.length ∧ x.length ≤ 3 ∧ encodeGroup x = [c₀, c₁, c₂, c₃] := by
  constructor
  · intro h
    unfold decodeLast at h
    split at h
    · rename_i h₃
      split at h
      · rename_i h₂
        obtain ⟨hlen, henc⟩ := (decodeGroup_eq_some_iff (by omega) rfl).mp h
        exact ⟨by omega, by omega, by rw [henc, h₂, h₃]; rfl⟩
      · obtain ⟨hlen, henc⟩ := (decodeGroup_eq_some_iff (by omega) rfl).mp h
        exact ⟨by omega, by omega, by rw [henc, h₃]; rfl⟩
    · obtain ⟨hlen, henc⟩ := (decodeGroup_eq_some_iff (by omega) rfl).mp h
      exact ⟨by omega, by omega, henc⟩
  · rintro ⟨hpos, hle, henc⟩
    obtain ⟨body, hlen, hne, hbody⟩ := encodeGroup_eq hle
    have hquad : body ++ List.replicate (3 - x.length) pad = [c₀, c₁, c₂, c₃] := hbody ▸ henc
    have hdecode : decodeGroup x.length body = some x :=
      (decodeGroup_eq_some_iff hle hlen).mpr ⟨rfl, hbody⟩
    obtain hx | hx | hx : x.length = 1 ∨ x.length = 2 ∨ x.length = 3 := by omega
    · rw [hx] at hlen hquad hdecode
      obtain ⟨d₀, d₁, rfl⟩ := List.length_eq_two.mp hlen
      obtain ⟨rfl, rfl, rfl, rfl⟩ : d₀ = c₀ ∧ d₁ = c₁ ∧ pad = c₂ ∧ pad = c₃ := by
        simpa using hquad
      rwa [decodeLast, if_pos rfl, if_pos rfl]
    · rw [hx] at hlen hquad hdecode
      obtain ⟨d₀, d₁, d₂, rfl⟩ := List.length_eq_three.mp hlen
      obtain ⟨rfl, rfl, rfl, rfl⟩ : d₀ = c₀ ∧ d₁ = c₁ ∧ d₂ = c₂ ∧ pad = c₃ := by
        simpa using hquad
      rwa [decodeLast, if_pos rfl, if_neg (hne d₂ (by simp))]
    · rw [hx] at hquad hdecode
      obtain rfl : body = [c₀, c₁, c₂, c₃] := by simpa using hquad
      rwa [decodeLast, if_neg (hne c₃ (by simp))]

/-- A quad that is not the last one is decoded by itself. -/
theorem decode_of_ne_nil {c₀ c₁ c₂ c₃ : UInt8} {text : List UInt8} (h : text ≠ []) :
    decode (c₀ :: c₁ :: c₂ :: c₃ :: text)
      = (decodeGroup 3 [c₀, c₁, c₂, c₃]).bind fun group => (decode text).map (group ++ ·) := by
  cases text with
  | nil => contradiction
  | cons d text =>
    refine congrArg (Option.bind _) (funext fun group => ?_)
    exact Option.map_eq_bind.symm

/-- The text of a whole group is decoded by itself. -/
theorem decode_encodeGroup_append {group : List UInt8} (h : group.length = 3)
    (text : List UInt8) : decode (encodeGroup group ++ text) = (decode text).map (group ++ ·) := by
  obtain ⟨body, hlen, hne, hbody⟩ := encodeGroup_eq (le_of_eq h)
  have hdecode : decodeGroup 3 body = some group :=
    (decodeGroup_eq_some_iff le_rfl (by rw [hlen, h])).mpr ⟨h, by rw [hbody, h]⟩
  rw [h] at hlen hbody
  obtain ⟨c₀, c₁, c₂, c₃, rfl⟩ := List.length_eq_four.mp hlen
  rw [hbody, Nat.sub_self, List.replicate_zero, List.append_nil]
  cases text with
  | nil =>
    show decodeLast c₀ c₁ c₂ c₃ = some (group ++ [])
    rw [decodeLast, if_neg (hne c₃ (by simp)), hdecode, List.append_nil]
  | cons d text =>
    show decode (c₀ :: c₁ :: c₂ :: c₃ :: d :: text) = _
    rw [decode_of_ne_nil (List.cons_ne_nil d text), hdecode, Option.bind_some]

/-- **A group is decoded** from its text, short ones too. -/
theorem decode_encodeGroup {group : List UInt8} (hpos : 0 < group.length)
    (h : group.length ≤ 3) : decode (encodeGroup group) = some group := by
  obtain ⟨c₀, c₁, c₂, c₃, henc⟩ := List.length_eq_four.mp (length_encodeGroup h)
  rw [henc]
  exact decodeLast_eq_some_iff.mpr ⟨hpos, h, henc⟩

/-- **The round trip.** -/
theorem decode_encode (x : List UInt8) : decode (encode x) = some x := by
  induction x using encode.induct with
  | case1 => rfl
  | case2 a => exact decode_encodeGroup (by simp) (by simp)
  | case3 a b => exact decode_encodeGroup (by simp) (by simp)
  | case4 a b c x ih =>
    rw [encode, decode_encodeGroup_append rfl, ih]
    rfl

/-- What the decoder accepts has been encoded. -/
theorem encode_of_decode {text x : List UInt8} (h : decode text = some x) : encode x = text := by
  induction text using decode.induct generalizing x with
  | case1 =>
    obtain rfl := Option.some.inj h
    rfl
  | case2 c₀ c₁ c₂ c₃ =>
    obtain ⟨hpos, hle, henc⟩ := decodeLast_eq_some_iff.mp h
    rw [encode_of_length_le hpos hle, henc]
  | case3 c₀ c₁ c₂ c₃ text hne ih =>
    rw [decode_of_ne_nil hne] at h
    obtain ⟨group, hgroup, h⟩ := Option.bind_eq_some_iff.mp h
    obtain ⟨y, hy, rfl⟩ := Option.map_eq_some_iff.mp h
    obtain ⟨hlen, henc⟩ := (decodeGroup_eq_some_iff le_rfl rfl).mp hgroup
    rw [encode_append hlen, henc, ih hy]
    rfl
  | case4 text h₁ h₂ h₃ =>
    rw [decode.eq_4 text h₁ h₂ h₃] at h
    cases h

/-- **The decoder is the inverse of the encoder**: what it accepts are the texts of sequences
of octets. -/
theorem decode_eq_some_iff {text x : List UInt8} : decode text = some x ↔ encode x = text :=
  ⟨encode_of_decode, fun h => h ▸ decode_encode x⟩

theorem encode_injective : Function.Injective encode := fun x y h =>
  Option.some.inj (by rw [← decode_encode x, h, decode_encode])

end Base64
