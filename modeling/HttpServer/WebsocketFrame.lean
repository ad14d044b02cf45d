import HttpServer.Cpp
import HttpServer.Endian
import Mathlib.Tactic.IntervalCases

/-!
# WebSocket frames

The frame codec of `application/websocket/websocket_frame.cpp`, and the wire
format it is a codec for. A `WireFrame` is a frame as the protocol describes it:
a first octet, a length in one of three forms, an optional masking key and the
payload as it travels. `decode` recognises exactly the octets of wire frames, and
`encode` produces them, so both halves are one function each on wire frames and
everything else follows: decoding what was encoded gives the frame back, and
encoding what was decoded gives the octets back, as long as the octets used no
freedom the encoder does not have.

Masking is where the codec leaves the protocol. The key is read and written most
significant octet first, but the payload is combined with the octets of the key
as they lie in memory, on a little-endian host the least significant one first.
Both sides make the same turn, so a round trip does not show it; `mask_iff` says
when the outcome is the prescribed one all the same.
-/

/-! ## The source -/

/-- `Opcode`. The enumeration has a fixed underlying type, so every octet is one
of its values. -/
structure Opcode where
  value : UInt8
  deriving DecidableEq, Repr

namespace Opcode

def continuation : Opcode := ⟨0x0⟩
def text : Opcode := ⟨0x1⟩
def binary : Opcode := ⟨0x2⟩
def close : Opcode := ⟨0x8⟩
def ping : Opcode := ⟨0x9⟩
def pong : Opcode := ⟨0xA⟩

end Opcode

/-- The contents of a `std::vector<uint8_t>`. -/
abbrev ByteVector := { b : Bytes // b.length ≤ vectorMaxSize }

/-- `Frame`. -/
structure Frame where
  fin : Bool := true
  opcode : Opcode := .text
  mask : Bool := false
  payloadLen : UInt64 := 0
  maskingKey : UInt32 := 0
  payload : ByteVector := ⟨[], Nat.zero_le _⟩
  deriving DecidableEq

namespace FrameCodec

/-- `ReadUint64`. -/
def readUint64 (data : Bytes) (offset bytes : ℕ) : UInt64 :=
  ((data.drop offset).take bytes).foldl (fun value b => (value <<< 8) ||| b.toUInt64) 0

/-- `WriteUint64`, whose loop counts `bytes` down. -/
def writeUint64 (out : Bytes) (value : UInt64) : ℕ → Bytes
  | 0 => out
  | i + 1 => writeUint64 (out ++ [((value >>> UInt64.ofNat (i * 8)) &&& 0xFF).toUInt8]) value i

/-- `reinterpret_cast<const uint8_t*>(&masking_key)[i]` on a little-endian host. -/
def keyByte (maskingKey : UInt32) (i : ℕ) : UInt8 :=
  (maskingKey >>> UInt32.ofNat (i * 8)).toUInt8

/-- The loop that combines a payload with the masking key. -/
def applyMask (maskingKey : UInt32) (data : Bytes) : Bytes :=
  data.mapIdx fun i b => b ^^^ keyByte maskingKey (i % 4)

/-- The header `Encode` puts in front of the payload. -/
def encodeHeader (frame : Frame) : Bytes :=
  let byte0 : UInt8 := (if frame.fin then 0x80 else 0x00) ||| (frame.opcode.value &&& 0x0F)
  let byte1 : UInt8 := if frame.mask then 0x80 else 0x00
  let len := frame.payloadLen
  let out : Bytes :=
    if len < 126 then [byte0, byte1 ||| len.toUInt8]
    else if len ≤ 0xFFFF then writeUint64 [byte0, byte1 ||| 126] len 2
    else writeUint64 [byte0, byte1 ||| 127] len 8
  if frame.mask then writeUint64 out frame.maskingKey.toUInt64 4 else out

/-- `Encode`. -/
def encode (frame : Frame) : Bytes :=
  let out := encodeHeader frame ++ frame.payload.val
  if frame.mask && !frame.payload.val.isEmpty then
    out.take (out.length - frame.payload.val.length)
      ++ applyMask frame.maskingKey (out.drop (out.length - frame.payload.val.length))
  else out

/-- The length field as `Decode` reads it, and the position behind it; `none`
where the data end too early. -/
def decodeLength (data : Bytes) (byte1 : UInt8) : Option (UInt64 × ℕ) :=
  let payloadLen := (byte1 &&& 0x7F).toUInt64
  if payloadLen = 126 then
    if data.length < 2 + 2 then none else some (readUint64 data 2 2, 2 + 2)
  else if payloadLen = 127 then
    if data.length < 2 + 8 then none else some (readUint64 data 2 8, 2 + 8)
  else some (payloadLen, 2)

/-- The masking key as `Decode` reads it, and the position behind it. -/
def decodeKey (data : Bytes) (mask : Bool) (pos : ℕ) : Option (UInt32 × ℕ) :=
  if mask then
    if data.length < pos + 4 then none
    else some ((readUint64 data pos 4).toUInt32, pos + 4)
  else some (0, pos)

/-- The last part of `Decode`: `resize`, which throws beyond `max_size()`, the
copy, and the mask. -/
def decodePayload (data : Bytes) (pos : ℕ) (payloadLen : UInt64) (maskingKey : UInt32)
    (frame : Frame) : Except StdException (ℕ × Frame) :=
  if h : payloadLen.toNat ≤ vectorMaxSize then
    let copied := (data.drop pos).take payloadLen.toNat
    let payload := if frame.mask && 0 < payloadLen then applyMask maskingKey copied else copied
    have hlen : payload.length ≤ payloadLen.toNat := by
      simp only [payload, copied, applyMask]
      split <;> simp
    .ok ((UInt64.ofNat pos + payloadLen).toNat,
      { frame with payloadLen, payload := ⟨payload, hlen.trans h⟩, maskingKey })
  else .error .lengthError

/-- `Decode`: the number of octets decoded, which is zero if the data are
incomplete, and the frame behind the reference. The sum of the positions is
computed in `size_t`. -/
def decode (data : Bytes) (frame : Frame) : Except StdException (ℕ × Frame) :=
  match data with
  | byte0 :: byte1 :: _ =>
    let frame : Frame :=
      { frame with
        fin := byte0 &&& 0x80 != 0
        opcode := ⟨byte0 &&& 0x0F⟩
        mask := byte1 &&& 0x80 != 0 }
    match decodeLength data byte1 with
    | none => .ok (0, frame)
    | some (payloadLen, pos) =>
      match decodeKey data frame.mask pos with
      | none => .ok (0, frame)
      | some (maskingKey, pos) =>
        if data.length < (UInt64.ofNat pos + payloadLen).toNat then .ok (0, frame)
        else decodePayload data pos payloadLen maskingKey frame
  | _ => .ok (0, frame)

end FrameCodec

/-! ## The wire format -/

/-- A masking key: its four octets in the order in which they are sent. -/
structure MaskingKey where
  k0 : UInt8
  k1 : UInt8
  k2 : UInt8
  k3 : UInt8
  deriving DecidableEq, Repr

namespace MaskingKey

def octets (k : MaskingKey) : Bytes := [k.k0, k.k1, k.k2, k.k3]

/-- The octet at a place from 0 to 3. -/
def octet (k : MaskingKey) : ℕ → UInt8
  | 0 => k.k0
  | 1 => k.k1
  | 2 => k.k2
  | _ => k.k3

/-- The key as the number `Frame` holds. -/
def value (k : MaskingKey) : UInt32 := .ofNat (BigEndian.value k.octets)

/-- The key that is sent for a number. -/
def ofValue (v : UInt32) : MaskingKey :=
  ⟨.ofNat (v.toNat / 256 ^ 3), .ofNat (v.toNat / 256 ^ 2), .ofNat (v.toNat / 256 ^ 1),
    .ofNat (v.toNat / 256 ^ 0)⟩

/-- **The masking the protocol prescribes**: the octet at place `i` is combined
with the octet of the key at place `i mod 4`. -/
def apply (k : MaskingKey) (data : Bytes) : Bytes := data.mapIdx fun i b => b ^^^ k.octet (i % 4)

theorem octets_ofValue (v : UInt32) : (ofValue v).octets = BigEndian.digits 4 v.toNat := rfl

@[simp] theorem length_octets (k : MaskingKey) : k.octets.length = 4 := rfl

@[simp] theorem value_ofValue (v : UInt32) : (ofValue v).value = v := by
  rw [value, octets_ofValue, BigEndian.value_digits_of_lt v.toNat_lt, UInt32.ofNat_toNat]

@[simp] theorem ofValue_value (k : MaskingKey) : ofValue k.value = k := by
  have hlt : BigEndian.value k.octets < 2 ^ 32 := by
    have h := BigEndian.value_lt k.octets
    rw [length_octets] at h
    exact lt_of_lt_of_eq h (by norm_num)
  have hnat : k.value.toNat = BigEndian.value k.octets := by
    rw [value, UInt32.toNat_ofNat', Nat.mod_eq_of_lt hlt]
  have hoct : (ofValue k.value).octets = k.octets := by
    rw [octets_ofValue, hnat]
    exact BigEndian.digits_value k.octets
  simp only [octets, List.cons.injEq, and_true] at hoct
  obtain ⟨h0, h1, h2, h3⟩ := hoct
  cases k
  simp_all [ofValue]

end MaskingKey

/-- The three forms of the length field. -/
inductive LengthForm
  | bits7
  | bits16
  | bits64
  deriving DecidableEq, Repr

namespace LengthForm

/-- The seven low bits of the second octet. -/
def code : LengthForm → ℕ → UInt8
  | bits7, n => .ofNat n
  | bits16, _ => 126
  | bits64, _ => 127

/-- The octets of the extended length. -/
def extended : LengthForm → ℕ → Bytes
  | bits7, _ => []
  | bits16, n => BigEndian.digits 2 n
  | bits64, n => BigEndian.digits 8 n

/-- The lengths a form can express. -/
def Fits : LengthForm → ℕ → Prop
  | bits7, n => n < 126
  | bits16, n => n < 2 ^ 16
  | bits64, n => n < 2 ^ 64

/-- The shortest form that can express a length. -/
def shortest (n : ℕ) : LengthForm :=
  if n < 126 then bits7 else if n < 2 ^ 16 then bits16 else bits64

theorem shortest_fits {n : ℕ} (h : n < 2 ^ 64) : (shortest n).Fits n := by
  unfold shortest
  split_ifs with h7 h16
  · exact h7
  · exact h16
  · exact h

theorem Fits.lt {form : LengthForm} {n : ℕ} (h : form.Fits n) : n < 2 ^ 64 := by
  cases form <;> simp only [Fits] at h <;> omega

theorem Fits.code_lt {form : LengthForm} {n : ℕ} (h : form.Fits n) : form.code n < 128 := by
  cases form with
  | bits7 =>
    have h' : n < 126 := h
    rw [UInt8.lt_iff_toNat_lt, code, UInt8.toNat_ofNat', Nat.mod_eq_of_lt (by omega)]
    exact lt_trans h' (by decide)
  | bits16 => exact (by decide : (126 : UInt8) < 128)
  | bits64 => exact (by decide : (127 : UInt8) < 128)

end LengthForm

/-- **A frame on the wire**: the first octet, the form of the length field, the
masking key if there is one, and the payload as it travels. -/
structure WireFrame where
  first : UInt8
  form : LengthForm
  key : Option MaskingKey
  payload : ByteVector
  fits : form.Fits payload.val.length

namespace WireFrame

open FrameCodec

/-- The octets of an optional masking key. -/
def keyOctets : Option MaskingKey → Bytes
  | none => []
  | some k => k.octets

variable (w : WireFrame)

/-- The number of payload octets. -/
def size : ℕ := w.payload.val.length

/-- The second octet. -/
def second : UInt8 := (if w.key.isSome then 0x80 else 0x00) ||| w.form.code w.size

/-- What precedes the payload. -/
def header : Bytes := w.first :: w.second :: (w.form.extended w.size ++ keyOctets w.key)

/-- **The octets of a wire frame.** -/
def octets : Bytes := w.header ++ w.payload.val

/-- The number the masking key is kept as. -/
def keyValue : Option MaskingKey → UInt32
  | none => 0
  | some k => k.value

/-- The frame `decode` makes of it. -/
def frame : Frame where
  fin := w.first &&& 0x80 != 0
  opcode := ⟨w.first &&& 0x0F⟩
  mask := w.key.isSome
  payloadLen := .ofNat w.size
  maskingKey := keyValue w.key
  payload := ⟨if w.key.isSome then applyMask (keyValue w.key) w.payload.val else w.payload.val, by
    split
    · exact (List.length_mapIdx).trans_le w.payload.property
    · exact w.payload.property⟩

end WireFrame

/-! ## Octets of the header -/

/-- The second octet is its mask bit and its seven low bits. -/
theorem octet_mask_split (b : UInt8) :
    (if b &&& 0x80 != 0 then 0x80 else 0x00) ||| (b &&& 0x7F) = b := by
  obtain ⟨⟨c⟩⟩ := b
  revert c
  decide +kernel

theorem octet_mask_join {c : UInt8} (h : c < 128) (m : Bool) :
    ((if m then 0x80 else 0x00) ||| c) &&& 0x7F = c
      ∧ (((if m then 0x80 else 0x00) ||| c) &&& 0x80 != 0) = m := by
  obtain ⟨⟨c⟩⟩ := c
  revert c m
  decide +kernel

/-- Without reserved bits the first octet is its final bit and its opcode. -/
theorem octet_fin_split {b : UInt8} (h : b &&& 0x70 = 0) :
    (if b &&& 0x80 != 0 then 0x80 else 0x00) ||| ((b &&& 0x0F) &&& 0x0F) = b := by
  obtain ⟨⟨c⟩⟩ := b
  revert c
  decide +kernel

theorem octet_fin_join {c : UInt8} (h : c < 16) (m : Bool) :
    ((if m then 0x80 else 0x00) ||| (c &&& 0x0F)) &&& 0x0F = c
      ∧ (((if m then 0x80 else 0x00) ||| (c &&& 0x0F)) &&& 0x80 != 0) = m := by
  obtain ⟨⟨c⟩⟩ := c
  revert c m
  decide +kernel

theorem octet_and_cases (b : UInt8) :
    b &&& 0x7F < 126 ∨ b &&& 0x7F = 126 ∨ b &&& 0x7F = 127 := by
  obtain ⟨⟨c⟩⟩ := b
  revert c
  decide +kernel

namespace FrameCodec

/-! ## Reading and writing numbers -/

/-- `readUint64` reads the big-endian number behind the offset. -/
theorem toNat_readUint64 (data : Bytes) (offset : ℕ) {n : ℕ} (h : n ≤ 8) :
    (readUint64 data offset n).toNat = BigEndian.value ((data.drop offset).take n) := by
  have hlen : ((data.drop offset).take n).length ≤ 8 := (List.length_take_le _ _).trans h
  rw [readUint64, BigEndian.toNat_foldl_shiftLeft_or (k := 0) (by decide) (by omega)]
  simp

theorem toNat_readUint64_append (pre l rest : Bytes) (h : l.length ≤ 8) :
    (readUint64 (pre ++ (l ++ rest)) pre.length l.length).toNat = BigEndian.value l := by
  rw [toNat_readUint64 _ _ h, List.drop_left, List.take_left]

/-- What is read does not depend on what follows. -/
theorem readUint64_append_right {data : Bytes} (rest : Bytes) {offset n : ℕ}
    (h : offset + n ≤ data.length) :
    readUint64 (data ++ rest) offset n = readUint64 data offset n := by
  rw [readUint64, List.drop_append_of_le_length (by omega),
    List.take_append_of_le_length (by rw [List.length_drop]; omega), readUint64]

/-- `writeUint64` appends the big-endian digits. -/
theorem writeUint64_eq (out : Bytes) (value : UInt64) {n : ℕ} (h : n ≤ 8) :
    writeUint64 out value n = out ++ BigEndian.digits n value.toNat := by
  induction n generalizing out with
  | zero => rw [writeUint64, BigEndian.digits_zero, List.append_nil]
  | succ i ih =>
    rw [writeUint64, ih _ (by omega), BigEndian.toNat_shiftRight_and (by omega),
      List.append_assoc]
    rfl

/-! ## The length field -/

theorem decodeLength_bits7 (data : Bytes) {byte1 : UInt8} (h : byte1 &&& 0x7F < 126) :
    decodeLength data byte1 = some ((byte1 &&& 0x7F).toUInt64, 2) := by
  have hne : ∀ c : UInt8, 126 ≤ c → (byte1 &&& 0x7F).toUInt64 ≠ c.toUInt64 := by
    intro c hc he
    rw [UInt8.toUInt64_inj] at he
    rw [he] at h
    exact absurd hc (UInt8.not_le.mpr h)
  simp only [decodeLength]
  rw [if_neg (show (byte1 &&& 0x7F).toUInt64 ≠ 126 from hne 126 (by decide)),
    if_neg (show (byte1 &&& 0x7F).toUInt64 ≠ 127 from hne 127 (by decide))]

theorem decodeLength_bits16 (data : Bytes) {byte1 : UInt8} (h : byte1 &&& 0x7F = 126) :
    decodeLength data byte1
      = if data.length < 4 then none else some (readUint64 data 2 2, 2 + 2) := by
  simp only [decodeLength, h]
  rfl

theorem decodeLength_bits64 (data : Bytes) {byte1 : UInt8} (h : byte1 &&& 0x7F = 127) :
    decodeLength data byte1
      = if data.length < 10 then none else some (readUint64 data 2 8, 2 + 8) := by
  simp only [decodeLength, h]
  rfl

/-! ## Masks -/

theorem length_applyMask (key : UInt32) (data : Bytes) :
    (applyMask key data).length = data.length := List.length_mapIdx

/-- Nothing to mask makes no difference. -/
theorem ite_applyMask (mask : Bool) (key : UInt32) {n : UInt64} {data : Bytes}
    (h : n = 0 → data = []) :
    (if mask && 0 < n then applyMask key data else data)
      = if mask then applyMask key data else data := by
  by_cases h0 : n = 0
  · simp [h h0, applyMask]
  · simp [UInt64.pos_iff_ne_zero.mpr h0]

/-- Combining with the same key twice changes nothing. -/
theorem applyMask_applyMask (key : UInt32) (data : Bytes) :
    applyMask key (applyMask key data) = data := by
  apply List.ext_getElem?
  intro i
  simp only [applyMask, List.getElem?_mapIdx, Option.map_map]
  cases data[i]? with
  | none => rfl
  | some b =>
    show some (b ^^^ keyByte key (i % 4) ^^^ keyByte key (i % 4)) = some b
    rw [UInt8.xor_assoc, UInt8.xor_self, UInt8.xor_zero]

/-- **The octets of a key in memory run against the order of the wire.** -/
theorem keyByte_value (k : MaskingKey) {i : ℕ} (h : i < 4) :
    keyByte k.value i = k.octet (3 - i) := by
  have hbyte : ∀ v : UInt32, keyByte v i = UInt8.ofNat (v.toNat / 256 ^ i) := by
    intro v
    apply UInt8.toNat_inj.mp
    have hi : (UInt32.ofNat (i * 8)).toNat % 32 = i * 8 := by
      rw [UInt32.toNat_ofNat', Nat.mod_eq_of_lt (a := i * 8) (by omega),
        Nat.mod_eq_of_lt (by omega)]
    rw [keyByte, UInt32.toNat_toUInt8, UInt32.toNat_shiftRight, hi, UInt8.toNat_ofNat',
      Nat.shiftRight_eq_div_pow,
      show (256 : ℕ) ^ i = 2 ^ (i * 8) by rw [Nat.mul_comm, pow_mul]; norm_num]
  rw [hbyte]
  conv_rhs => rw [← MaskingKey.ofValue_value k]
  interval_cases i <;> rfl

/-- The mask of the codec in terms of the octets on the wire. -/
theorem applyMask_value (k : MaskingKey) (data : Bytes) :
    applyMask k.value data = data.mapIdx fun i b => b ^^^ k.octet (3 - i % 4) := by
  unfold applyMask
  congr 1
  funext i b
  rw [keyByte_value k (Nat.mod_lt i (by omega))]

end FrameCodec

namespace WireFrame

open FrameCodec

variable (w : WireFrame)

/-! ## Decoding a wire frame -/

theorem second_and (w : WireFrame) :
    w.second &&& 0x7F = w.form.code w.size ∧ (w.second &&& 0x80 != 0) = w.key.isSome :=
  octet_mask_join w.fits.code_lt w.key.isSome

theorem toNat_ofNat_size : (UInt64.ofNat w.size).toNat = w.size := by
  rw [UInt64.toNat_ofNat']
  exact Nat.mod_eq_of_lt w.fits.lt

/-- The length field of a wire frame is read as the size of its payload. -/
theorem decodeLength_header (rest : Bytes) :
    decodeLength (w.first :: w.second :: (w.form.extended w.size ++ rest)) w.second
      = some (.ofNat w.size, 2 + (w.form.extended w.size).length) := by
  have hcode := w.second_and.1
  have hfits : w.form.Fits w.size := w.fits
  -- the two octets before the extended length
  have hread : ∀ l : Bytes, l.length ≤ 8 → BigEndian.value l = w.size →
      readUint64 (w.first :: w.second :: (l ++ rest)) 2 l.length = .ofNat w.size := by
    intro l hl hv
    apply UInt64.toNat_inj.mp
    rw [toNat_ofNat_size, ← hv]
    exact toNat_readUint64_append [w.first, w.second] l rest hl
  cases hform : w.form with
  | bits7 =>
    rw [hform] at hcode hfits
    have hlt : w.size < 126 := hfits
    have hnat : (w.second &&& 0x7F).toNat = w.size := by
      rw [hcode, LengthForm.code, UInt8.toNat_ofNat', Nat.mod_eq_of_lt (by omega)]
    have hcast : (w.second &&& 0x7F).toUInt64 = .ofNat w.size := by
      apply UInt64.toNat_inj.mp
      rw [UInt8.toNat_toUInt64, hnat, toNat_ofNat_size]
    rw [decodeLength_bits7 _ (by rw [UInt8.lt_iff_toNat_lt, hnat]; exact hlt), hcast]
    rfl
  | bits16 =>
    rw [hform] at hcode hfits
    have hv := BigEndian.value_digits_of_lt (w := 2) (lt_of_lt_of_eq hfits (by norm_num))
    have hr := hread (BigEndian.digits 2 w.size) (by simp) hv
    rw [BigEndian.length_digits] at hr
    rw [decodeLength_bits16 _ hcode, LengthForm.extended, if_neg (by simp), hr,
      BigEndian.length_digits]
  | bits64 =>
    rw [hform] at hcode hfits
    have hv := BigEndian.value_digits_of_lt (w := 8) (lt_of_lt_of_eq hfits (by norm_num))
    have hr := hread (BigEndian.digits 8 w.size) (by simp) hv
    rw [BigEndian.length_digits] at hr
    rw [decodeLength_bits64 _ hcode, LengthForm.extended, if_neg (by simp), hr,
      BigEndian.length_digits]

/-- The masking key is read behind what precedes it. -/
theorem decodeKey_append (pre rest : Bytes) (key : Option MaskingKey) :
    decodeKey (pre ++ (keyOctets key ++ rest)) key.isSome pre.length
      = some (keyValue key, pre.length + (keyOctets key).length) := by
  cases key with
  | none => rfl
  | some k =>
    have hcast : (readUint64 (pre ++ (k.octets ++ rest)) pre.length 4).toUInt32 = k.value := by
      apply UInt32.toNat_inj.mp
      rw [UInt64.toNat_toUInt32, MaskingKey.value, UInt32.toNat_ofNat']
      congr 1
      exact toNat_readUint64_append pre k.octets rest (by simp)
    show decodeKey (pre ++ (k.octets ++ rest)) true pre.length = some (k.value, pre.length + 4)
    rw [decodeKey, if_pos rfl, if_neg (by simp), hcast]

theorem length_extended_le (form : LengthForm) (n : ℕ) : (form.extended n).length ≤ 8 := by
  cases form <;> simp [LengthForm.extended]

theorem length_keyOctets_le (key : Option MaskingKey) : (keyOctets key).length ≤ 4 := by
  cases key <;> simp [keyOctets]

theorem length_header :
    w.header.length = 2 + (w.form.extended w.size).length + (keyOctets w.key).length := by
  rw [header, List.length_cons, List.length_cons, List.length_append]
  omega

theorem length_octets : w.octets.length = w.header.length + w.size := by
  rw [octets, List.length_append, size]

/-- **Every wire frame is decoded**, whatever follows it. -/
theorem decode_octets (rest : Bytes) (frame : Frame) :
    decode (w.octets ++ rest) frame = .ok (w.octets.length, w.frame) := by
  have hsplit : w.octets ++ rest = w.first :: w.second ::
      (w.form.extended w.size ++ (keyOctets w.key ++ (w.payload.val ++ rest))) := by
    simp [octets, header]
  have hpre : w.first :: w.second ::
      (w.form.extended w.size ++ (keyOctets w.key ++ (w.payload.val ++ rest)))
        = (w.first :: w.second :: w.form.extended w.size)
          ++ (keyOctets w.key ++ (w.payload.val ++ rest)) := rfl
  have hlenpre : 2 + (w.form.extended w.size).length
      = (w.first :: w.second :: w.form.extended w.size).length := by
    rw [List.length_cons, List.length_cons]
    omega
  have hdrop : (w.octets ++ rest).drop w.header.length = w.payload.val ++ rest := by
    rw [octets, List.append_assoc, List.drop_left]
  have hkey : decodeKey (w.octets ++ rest) w.key.isSome (2 + (w.form.extended w.size).length)
      = some (keyValue w.key, w.header.length) := by
    rw [hsplit, hpre, hlenpre, decodeKey_append, length_header, hlenpre]
  have hmax : w.size ≤ 2 ^ 63 - 1 := w.payload.property
  have hlen := w.length_header
  have h8 := length_extended_le w.form w.size
  have h4 := length_keyOctets_le w.key
  have hsum : (UInt64.ofNat w.header.length + UInt64.ofNat w.size).toNat
      = w.header.length + w.size := by
    rw [UInt64.toNat_add, toNat_ofNat_size, UInt64.toNat_ofNat',
      Nat.mod_eq_of_lt (a := w.header.length) (by omega), Nat.mod_eq_of_lt (by omega)]
  have hcopied : ((w.octets ++ rest).drop w.header.length).take (UInt64.ofNat w.size).toNat
      = w.payload.val := by
    rw [hdrop, toNat_ofNat_size, size, List.take_left]
  have hroom : ¬ (w.octets ++ rest).length
      < (UInt64.ofNat w.header.length + UInt64.ofNat w.size).toNat := by
    rw [hsum, List.length_append, length_octets]
    omega
  have hmask := w.second_and.2
  rw [hsplit] at hkey hcopied hroom ⊢
  simp only [decode, hmask, decodeLength_header, hkey, if_neg hroom]
  rw [decodePayload, dif_pos (by rw [toNat_ofNat_size]; exact hmax)]
  simp only [hcopied, hsum, ← length_octets, Except.ok.injEq, Prod.mk.injEq, true_and]
  unfold WireFrame.frame
  congr 1
  refine Subtype.ext (ite_applyMask w.key.isSome (keyValue w.key) fun h0 => ?_)
  have hnat := w.toNat_ofNat_size
  rw [h0] at hnat
  exact List.length_eq_zero_iff.mp hnat.symm

/-! ## What is decoded is a wire frame -/

theorem decodeLength_sound {byte0 byte1 : UInt8} {tl : Bytes} {len : UInt64} {pos : ℕ}
    (h : decodeLength (byte0 :: byte1 :: tl) byte1 = some (len, pos)) :
    ∃ form : LengthForm, form.Fits len.toNat ∧ byte1 &&& 0x7F = form.code len.toNat
      ∧ pos = 2 + (form.extended len.toNat).length
      ∧ ∃ rest, tl = form.extended len.toNat ++ rest := by
  -- the extended forms, whose digits are those of the number that was read
  have hext : ∀ n ≤ 8, n ≤ tl.length →
      BigEndian.digits n (readUint64 (byte0 :: byte1 :: tl) 2 n).toNat = tl.take n := by
    intro n hn hle
    have hlen : (tl.take n).length = n := List.length_take_of_le hle
    rw [toNat_readUint64 _ _ hn]
    have hdigits := BigEndian.digits_value (tl.take n)
    rw [hlen] at hdigits
    exact hdigits
  rcases octet_and_cases byte1 with h7 | h16 | h64
  · rw [decodeLength_bits7 _ h7] at h
    cases h
    refine ⟨.bits7, ?_, ?_, rfl, tl, rfl⟩
    · show (byte1 &&& 0x7F).toUInt64.toNat < 126
      rw [UInt8.toNat_toUInt64]
      exact UInt8.lt_iff_toNat_lt.mp h7
    · show _ = UInt8.ofNat (byte1 &&& 0x7F).toUInt64.toNat
      rw [UInt8.toNat_toUInt64, UInt8.ofNat_toNat]
  · rw [decodeLength_bits16 _ h16] at h
    split at h
    · cases h
    · rename_i hle
      cases h
      have hle' : 2 ≤ tl.length := by simp only [List.length_cons] at hle; omega
      refine ⟨.bits16, ?_, h16, ?_, tl.drop 2, ?_⟩
      · show (readUint64 _ 2 2).toNat < 2 ^ 16
        rw [toNat_readUint64 _ _ (by omega)]
        have hlt := BigEndian.value_lt (((byte0 :: byte1 :: tl).drop 2).take 2)
        rw [List.length_take_of_le (by simpa using hle')] at hlt
        exact lt_of_lt_of_eq hlt (by norm_num)
      · simp [LengthForm.extended]
      · rw [LengthForm.extended, hext 2 (by omega) hle', List.take_append_drop]
  · rw [decodeLength_bits64 _ h64] at h
    split at h
    · cases h
    · rename_i hle
      cases h
      have hle' : 8 ≤ tl.length := by simp only [List.length_cons] at hle; omega
      refine ⟨.bits64, UInt64.toNat_lt _, h64, ?_, tl.drop 8, ?_⟩
      · simp [LengthForm.extended]
      · rw [LengthForm.extended, hext 8 (by omega) hle', List.take_append_drop]

theorem decodeKey_sound {data : Bytes} {mask : Bool} {pos pos' : ℕ} {maskingKey : UInt32}
    (h : decodeKey data mask pos = some (maskingKey, pos')) :
    ∃ key : Option MaskingKey, key.isSome = mask ∧ keyValue key = maskingKey
      ∧ pos' = pos + (keyOctets key).length
      ∧ ∃ rest, data.drop pos = keyOctets key ++ rest := by
  cases mask with
  | false =>
    cases h
    exact ⟨none, rfl, rfl, rfl, data.drop pos, rfl⟩
  | true =>
    rw [decodeKey, if_pos rfl] at h
    split at h
    · cases h
    · rename_i hle
      cases h
      set l := (data.drop pos).take 4 with hl
      have hlen : l.length = 4 := List.length_take_of_le (by rw [List.length_drop]; omega)
      have hlt : BigEndian.value l < 2 ^ 32 := by
        have h := BigEndian.value_lt l
        rw [hlen] at h
        exact lt_of_lt_of_eq h (by norm_num)
      have hnat : (readUint64 data pos 4).toUInt32.toNat = BigEndian.value l := by
        rw [UInt64.toNat_toUInt32, toNat_readUint64 _ _ (by omega), ← hl, Nat.mod_eq_of_lt hlt]
      have hoct : (MaskingKey.ofValue (readUint64 data pos 4).toUInt32).octets = l := by
        rw [MaskingKey.octets_ofValue, hnat, ← hlen]
        exact BigEndian.digits_value l
      exact ⟨some (.ofValue _), rfl, MaskingKey.value_ofValue _, rfl, (data.drop pos).drop 4, by
        rw [keyOctets, hoct, List.take_append_drop]⟩

/-- Where something is decoded, the length, the key and the payload are there. -/
theorem decode_pos {data : Bytes} {frame f : Frame} {n : ℕ}
    (h : decode data frame = .ok (n, f)) (hn : 0 < n) :
    ∃ byte0 byte1 tl len pos maskingKey pos', data = byte0 :: byte1 :: tl
      ∧ decodeLength data byte1 = some (len, pos)
      ∧ decodeKey data (byte1 &&& 0x80 != 0) pos = some (maskingKey, pos')
      ∧ (UInt64.ofNat pos' + len).toNat ≤ data.length
      ∧ decodePayload data pos' len maskingKey { frame with
          fin := byte0 &&& 0x80 != 0, opcode := ⟨byte0 &&& 0x0F⟩, mask := byte1 &&& 0x80 != 0 }
        = .ok (n, f) := by
  match data, h with
  | [], h => cases h; omega
  | [_], h => cases h; omega
  | byte0 :: byte1 :: tl, h =>
    simp only [decode] at h
    cases hlen : decodeLength (byte0 :: byte1 :: tl) byte1 with
    | none => rw [hlen] at h; cases h; omega
    | some lp =>
      simp only [hlen] at h
      cases hkey : decodeKey (byte0 :: byte1 :: tl) (byte1 &&& 0x80 != 0) lp.2 with
      | none => rw [hkey] at h; cases h; omega
      | some kp =>
        simp only [hkey] at h
        split at h
        · cases h; omega
        · exact ⟨byte0, byte1, tl, lp.1, lp.2, kp.1, kp.2, rfl, hlen, hkey, Nat.not_lt.mp ‹_›, h⟩

/-- **Whatever is decoded is a wire frame.** -/
theorem decode_sound {data : Bytes} {frame f : Frame} {n : ℕ}
    (h : decode data frame = .ok (n, f)) (hn : 0 < n) :
    ∃ (w : WireFrame) (rest : Bytes),
      data = w.octets ++ rest ∧ n = w.octets.length ∧ f = w.frame := by
  obtain ⟨byte0, byte1, tl, len, pos, maskingKey, pos', rfl, hlen, hkey, hroom, hpayload⟩ :=
    decode_pos h hn
  unfold decodePayload at hpayload
  split at hpayload <;> cases hpayload
  rename_i hmax
  obtain ⟨form, hfits, hcode, rfl, tl', rfl⟩ := decodeLength_sound hlen
  obtain ⟨key, hsome, rfl, rfl, rest, hrest⟩ := decodeKey_sound hkey
  have h8 := length_extended_le form len.toNat
  have h4 := length_keyOctets_le key
  have htl : tl' = keyOctets key ++ rest := by
    rw [Nat.add_comm] at hrest
    exact (List.drop_left).symm.trans hrest
  subst htl
  have hmax' : len.toNat ≤ 2 ^ 63 - 1 := hmax
  have hsum : (UInt64.ofNat (2 + (form.extended len.toNat).length + (keyOctets key).length)
      + len).toNat = 2 + (form.extended len.toNat).length + (keyOctets key).length
        + len.toNat := by
    rw [UInt64.toNat_add, UInt64.toNat_ofNat', Nat.mod_eq_of_lt (a := 2 + _ + _) (by omega),
      Nat.mod_eq_of_lt (by omega)]
  rw [hsum] at hroom
  have hle : len.toNat ≤ rest.length := by
    simp only [List.length_cons, List.length_append] at hroom
    omega
  have hpay : (rest.take len.toNat).length = len.toNat := List.length_take_of_le hle
  have hdrop : (byte0 :: byte1 :: (form.extended len.toNat ++ (keyOctets key ++ rest))).drop
      (2 + (form.extended len.toNat).length + (keyOctets key).length) = rest := by
    rw [← List.drop_drop, hrest, List.drop_left]
  let w : WireFrame :=
    ⟨byte0, form, key, ⟨rest.take len.toNat, hpay.trans_le hmax⟩, by rw [hpay]; exact hfits⟩
  have hsize : w.size = len.toNat := hpay
  have hsecond : w.second = byte1 := by
    rw [second, hsize]
    show (if key.isSome then 0x80 else 0x00) ||| form.code len.toNat = byte1
    rw [hsome, ← hcode, octet_mask_split]
  have hheader : w.header
      = byte0 :: byte1 :: (form.extended len.toNat ++ keyOctets key) := by
    rw [header, hsecond, hsize]
  refine ⟨w, rest.drop len.toNat, ?_, ?_, ?_⟩
  · rw [octets, hheader]
    simp [w]
  · rw [hsum, length_octets, length_header, hsize]
  · unfold WireFrame.frame
    rw [hsize, UInt64.ofNat_toNat]
    congr 1
    · exact hsome.symm
    · refine Subtype.ext ?_
      simp only [hdrop]
      rw [ite_applyMask]
      · show _ = if key.isSome then _ else _
        rw [hsome]
      · intro h0
        rw [h0]
        rfl

/-! ## Incomplete frames -/

theorem decodeLength_append {data : Bytes} {byte1 : UInt8} {r : UInt64 × ℕ} (rest : Bytes)
    (h : decodeLength data byte1 = some r) : decodeLength (data ++ rest) byte1 = some r := by
  rcases octet_and_cases byte1 with h7 | h16 | h64
  · rwa [decodeLength_bits7 _ h7] at h ⊢
  · rw [decodeLength_bits16 _ h16] at h ⊢
    split at h
    · cases h
    · rename_i hle
      rw [if_neg (by rw [List.length_append]; omega), readUint64_append_right rest (by omega)]
      exact h
  · rw [decodeLength_bits64 _ h64] at h ⊢
    split at h
    · cases h
    · rename_i hle
      rw [if_neg (by rw [List.length_append]; omega), readUint64_append_right rest (by omega)]
      exact h

theorem decodeKey_append_right {data : Bytes} {mask : Bool} {pos : ℕ} {r : UInt32 × ℕ}
    (rest : Bytes) (h : decodeKey data mask pos = some r) :
    decodeKey (data ++ rest) mask pos = some r := by
  cases mask with
  | false => exact h
  | true =>
    rw [decodeKey, if_pos rfl] at h ⊢
    split at h
    · cases h
    · rename_i hle
      rw [if_neg (by rw [List.length_append]; omega), readUint64_append_right rest (by omega)]
      exact h

/-- A throwing `decode` throws whatever follows. -/
theorem decode_error_append {data : Bytes} {frame : Frame} {e : StdException} (rest : Bytes)
    (h : decode data frame = .error e) : decode (data ++ rest) frame = .error e := by
  match data, h with
  | [], h => cases h
  | [_], h => cases h
  | byte0 :: byte1 :: tl, h =>
    show decode (byte0 :: byte1 :: (tl ++ rest)) frame = .error e
    simp only [decode] at h ⊢
    cases hlen : decodeLength (byte0 :: byte1 :: tl) byte1 with
    | none => rw [hlen] at h; cases h
    | some lp =>
      have hlen' : decodeLength (byte0 :: byte1 :: (tl ++ rest)) byte1 = some lp :=
        decodeLength_append rest hlen
      simp only [hlen] at h
      simp only [hlen']
      cases hkey : decodeKey (byte0 :: byte1 :: tl) (byte1 &&& 0x80 != 0) lp.2 with
      | none => rw [hkey] at h; cases h
      | some kp =>
        have hkey' : decodeKey (byte0 :: byte1 :: (tl ++ rest)) (byte1 &&& 0x80 != 0) lp.2
            = some kp := decodeKey_append_right rest hkey
        simp only [hkey] at h
        simp only [hkey']
        split at h
        · cases h
        · rename_i hroom
          have hroom' : ¬ (byte0 :: byte1 :: (tl ++ rest)).length
              < (UInt64.ofNat kp.2 + lp.1).toNat := by
            simp only [List.length_cons, List.length_append] at hroom ⊢
            omega
          rw [if_neg hroom']
          unfold decodePayload at h ⊢
          split at h
          · cases h
          · rename_i hmax
            rw [dif_neg hmax]
            exact h

/-- **A proper prefix of a wire frame is reported as incomplete.** -/
theorem decode_prefix {p : Bytes} (hp : p <+: w.octets) (hne : p ≠ w.octets) (frame : Frame) :
    ∃ f, decode p frame = .ok (0, f) := by
  obtain ⟨q, hq⟩ := hp
  have hfull : decode (p ++ q) frame = .ok (w.octets.length, w.frame) := by
    rw [hq, ← List.append_nil w.octets, w.decode_octets [] frame, List.append_nil]
  cases hdec : decode p frame with
  | error e =>
    rw [decode_error_append q hdec] at hfull
    cases hfull
  | ok r =>
    obtain ⟨n, f⟩ := r
    rcases Nat.eq_zero_or_pos n with rfl | hn
    · exact ⟨f, rfl⟩
    · -- a complete frame at the front of `p` would be the whole of `w`
      obtain ⟨w', rest, rfl, rfl, -⟩ := decode_sound hdec hn
      have h' := w'.decode_octets (rest ++ q) frame
      rw [← List.append_assoc, hfull, Except.ok.injEq, Prod.mk.injEq] at h'
      have hlen := congrArg List.length hq
      rw [List.length_append, List.length_append, h'.1] at hlen
      have hnil : q = [] := List.length_eq_zero_iff.mp (by omega)
      rw [hnil, List.append_nil] at hq
      exact absurd hq hne

/-! ## Encoding -/

/-- **The wire frame a frame is sent as.** -/
def ofFrame (f : Frame) (h : f.payloadLen.toNat = f.payload.val.length) : WireFrame where
  first := (if f.fin then 0x80 else 0x00) ||| (f.opcode.value &&& 0x0F)
  form := .shortest f.payloadLen.toNat
  key := if f.mask then some (.ofValue f.maskingKey) else none
  payload := ⟨if f.mask then applyMask f.maskingKey f.payload.val else f.payload.val, by
    split
    · exact (length_applyMask _ _).trans_le f.payload.property
    · exact f.payload.property⟩
  fits := by
    have hfits := LengthForm.shortest_fits f.payloadLen.toNat_lt
    split
    · rwa [length_applyMask, ← h]
    · rwa [← h]

/-- The octets of the header of a frame. -/
theorem encodeHeader_eq (f : Frame) :
    encodeHeader f
      = ((if f.fin then 0x80 else 0x00) ||| (f.opcode.value &&& 0x0F))
        :: ((if f.mask then 0x80 else 0x00)
          ||| (LengthForm.shortest f.payloadLen.toNat).code f.payloadLen.toNat)
        :: ((LengthForm.shortest f.payloadLen.toNat).extended f.payloadLen.toNat
          ++ if f.mask then (MaskingKey.ofValue f.maskingKey).octets else []) := by
  have hkey : BigEndian.digits 4 f.maskingKey.toUInt64.toNat
      = (MaskingKey.ofValue f.maskingKey).octets := by
    rw [UInt32.toNat_toUInt64, MaskingKey.octets_ofValue]
  have h7 : f.payloadLen < 126 ↔ f.payloadLen.toNat < 126 := UInt64.lt_iff_toNat_lt
  have h16 : f.payloadLen ≤ 0xFFFF ↔ f.payloadLen.toNat < 2 ^ 16 :=
    UInt64.le_iff_toNat_le.trans (by show f.payloadLen.toNat ≤ 65535 ↔ _; omega)
  have hcode : f.payloadLen.toUInt8 = UInt8.ofNat f.payloadLen.toNat := by
    apply UInt8.toNat_inj.mp
    rw [UInt64.toNat_toUInt8, UInt8.toNat_ofNat']
  unfold encodeHeader LengthForm.shortest
  simp only [h7, h16, writeUint64_eq _ _ (show 2 ≤ 8 by omega),
    writeUint64_eq _ _ (show 8 ≤ 8 by omega), writeUint64_eq _ _ (show 4 ≤ 8 by omega), hkey,
    hcode]
  split_ifs <;> simp [LengthForm.code, LengthForm.extended]

/-- **What `encode` produces**: the header and the payload, masked if the frame is. -/
theorem encode_eq (f : Frame) :
    encode f = encodeHeader f
      ++ if f.mask then applyMask f.maskingKey f.payload.val else f.payload.val := by
  have hlen : (encodeHeader f ++ f.payload.val).length - f.payload.val.length
      = (encodeHeader f).length := by
    rw [List.length_append, Nat.add_sub_cancel]
  simp only [encode, hlen, List.take_left, List.drop_left]
  cases f.mask with
  | false => rfl
  | true =>
    by_cases hnil : f.payload.val = []
    · simp [hnil, applyMask]
    · simp [hnil]

/-- **`encode` produces wire frames.** -/
theorem encode_eq_octets (f : Frame) (h : f.payloadLen.toNat = f.payload.val.length) :
    encode f = (ofFrame f h).octets := by
  have hsize : (ofFrame f h).size = f.payloadLen.toNat := by
    rw [h]
    show List.length (if f.mask then _ else _) = _
    split
    · exact length_applyMask _ _
    · rfl
  rw [encode_eq, encodeHeader_eq, octets, header, second, hsize]
  obtain ⟨fin, opcode, mask, payloadLen, maskingKey, payload⟩ := f
  cases mask <;> simp [ofFrame, keyOctets]

/-- **A wire frame made of a frame is decoded to that frame**, if the opcode has
four bits and there is no masking key without a mask. -/
theorem frame_ofFrame (f : Frame) (h : f.payloadLen.toNat = f.payload.val.length)
    (hop : f.opcode.value < 16) (hkey : f.mask = false → f.maskingKey = 0) :
    (ofFrame f h).frame = f := by
  obtain ⟨fin, opcode, mask, payloadLen, maskingKey, payload⟩ := f
  obtain ⟨hopcode, hfin⟩ := octet_fin_join hop fin
  have hlen : UInt64.ofNat payload.val.length = payloadLen := by
    rw [← h, UInt64.ofNat_toNat]
  cases mask with
  | false =>
    cases hkey rfl
    simp only [frame, ofFrame, size, Frame.mk.injEq]
    exact ⟨hfin, congrArg Opcode.mk hopcode, rfl, hlen, rfl, rfl⟩
  | true =>
    simp only [frame, ofFrame, size, Frame.mk.injEq]
    refine ⟨hfin, congrArg Opcode.mk hopcode, rfl, ?_, MaskingKey.value_ofValue _, ?_⟩
    · simpa [length_applyMask] using hlen
    · apply Subtype.ext
      show applyMask (MaskingKey.ofValue maskingKey).value (applyMask maskingKey payload.val) = _
      rw [MaskingKey.value_ofValue, applyMask_applyMask]

/-- **A decoded wire frame is sent as it came**, if it has no reserved bits and
the shortest form of its length. -/
theorem ofFrame_frame (hrsv : w.first &&& 0x70 = 0) (hform : w.form = .shortest w.size) :
    ∃ h, ofFrame w.frame h = w := by
  have hsize := w.toNat_ofNat_size
  obtain ⟨first, form, key, payload, fits⟩ := w
  have hfirst := octet_fin_split hrsv
  have hform' : form = .shortest payload.val.length := hform
  cases key with
  | none =>
    refine ⟨hsize, ?_⟩
    simp only [frame, ofFrame, hfirst, hform', WireFrame.mk.injEq]
    exact ⟨trivial, congrArg LengthForm.shortest hsize, rfl, rfl⟩
  | some k =>
    refine ⟨hsize.trans (length_applyMask _ _).symm, ?_⟩
    simp only [frame, ofFrame, hfirst, hform', WireFrame.mk.injEq]
    refine ⟨trivial, congrArg LengthForm.shortest hsize, ?_, ?_⟩
    · show some (MaskingKey.ofValue k.value) = some k
      rw [MaskingKey.ofValue_value]
    · apply Subtype.ext
      show applyMask k.value (applyMask k.value payload.val) = payload.val
      exact applyMask_applyMask _ _

end WireFrame

/-! ## The round trip -/

/-- The frames a caller of the codec builds: the length is that of the payload,
the opcode has four bits, and there is no masking key without a mask. -/
structure Frame.Regular (f : Frame) : Prop where
  payloadLen_eq : f.payloadLen.toNat = f.payload.val.length
  opcode_lt : f.opcode.value < 16
  maskingKey_eq : f.mask = false → f.maskingKey = 0

/-- The reserved bits of the first octet are zero. -/
def ReservedZero (data : Bytes) : Prop := ∀ b ∈ data.head?, b &&& 0x70 = 0

/-- The length field uses the shortest of its three forms. -/
def ShortestLength : Bytes → Prop
  | _ :: byte1 :: ext =>
    (byte1 &&& 0x7F = 126 → 126 ≤ BigEndian.value (ext.take 2))
      ∧ (byte1 &&& 0x7F = 127 → 2 ^ 16 ≤ BigEndian.value (ext.take 8))
  | _ => True

theorem WireFrame.form_eq_shortest (w : WireFrame) {rest : Bytes}
    (h : ShortestLength (w.octets ++ rest)) : w.form = .shortest w.size := by
  have hcode := w.second_and.1
  have hfits : w.form.Fits w.size := w.fits
  have hext : w.octets ++ rest = w.first :: w.second ::
      (w.form.extended w.size ++ (keyOctets w.key ++ (w.payload.val ++ rest))) := by
    simp [octets, header]
  rw [hext] at h
  obtain ⟨h16, h64⟩ := h
  unfold LengthForm.shortest
  cases hform : w.form with
  | bits7 =>
    rw [hform] at hfits
    exact (if_pos hfits).symm
  | bits16 =>
    rw [hform] at hcode hfits h16
    have hlt : w.size < 2 ^ 16 := hfits
    have hle := h16 hcode
    rw [LengthForm.extended, List.take_left' (BigEndian.length_digits _ _),
      BigEndian.value_digits_of_lt (lt_of_lt_of_eq hlt (by norm_num))] at hle
    rw [if_neg (by omega), if_pos hlt]
  | bits64 =>
    rw [hform] at hcode hfits h64
    have hlt : w.size < 2 ^ 64 := hfits
    have hle := h64 hcode
    rw [LengthForm.extended, List.take_left' (BigEndian.length_digits _ _),
      BigEndian.value_digits_of_lt (lt_of_lt_of_eq hlt (by norm_num))] at hle
    rw [if_neg (by omega), if_neg (by omega)]

namespace FrameCodec

/-- **The codec round-trips.** A regular frame is decoded from its encoding,
whatever follows, and no proper prefix of the encoding is decoded. What is
decoded without reserved bits and with the shortest length field is encoded to
the octets it came from. -/
theorem codec_roundtrip :
    (∀ f : Frame, f.Regular → ∀ frame : Frame,
      (∀ rest, decode (encode f ++ rest) frame = .ok ((encode f).length, f))
        ∧ ∀ p, p <+: encode f → p ≠ encode f → ∃ f', decode p frame = .ok (0, f'))
    ∧ ∀ (data : Bytes) (frame f : Frame) (n : ℕ), decode data frame = .ok (n, f) → 0 < n →
      ReservedZero data → ShortestLength data → encode f = data.take n := by
  constructor
  · intro f hf frame
    have henc := WireFrame.encode_eq_octets f hf.payloadLen_eq
    have hframe := WireFrame.frame_ofFrame f hf.payloadLen_eq hf.opcode_lt hf.maskingKey_eq
    constructor
    · intro rest
      rw [henc, WireFrame.decode_octets, hframe]
    · intro p hp hne
      rw [henc] at hp hne
      exact WireFrame.decode_prefix _ hp hne frame
  · intro data frame f n hdec hn hrsv hshort
    obtain ⟨w, rest, rfl, rfl, rfl⟩ := WireFrame.decode_sound hdec hn
    obtain ⟨h, hw⟩ := w.ofFrame_frame (hrsv w.first rfl) (w.form_eq_shortest hshort)
    rw [WireFrame.encode_eq_octets _ h, hw, List.take_left]

/-- The round trip of a masked text frame, and back. -/
theorem codec_roundtrip_hi :
    (∀ rest, decode (encode ⟨true, .text, true, 2, 0x01020304, ⟨[0x68, 0x69], by decide⟩⟩ ++ rest) {}
      = .ok (8, ⟨true, .text, true, 2, 0x01020304, ⟨[0x68, 0x69], by decide⟩⟩))
    ∧ encode ⟨true, .text, false, 2, 0, ⟨[0x68, 0x69], by decide⟩⟩
      = [0x81, 0x02, 0x68, 0x69, 0xFF].take 4 :=
  ⟨fun rest => (codec_roundtrip.1 ⟨true, .text, true, 2, 0x01020304, ⟨[0x68, 0x69], by decide⟩⟩
      ⟨rfl, by decide, by decide⟩ {}).1 rest,
    codec_roundtrip.2 [0x81, 0x02, 0x68, 0x69, 0xFF] {} _ 4 rfl (by decide)
      (by unfold ReservedZero; decide +kernel) (by unfold ShortestLength; decide +kernel)⟩

/-! ## Masking -/

end FrameCodec

/-- **Where the octets of the key are the same from both ends**, as far as a
payload of `n` octets uses them. -/
def MaskingKey.Palindromic (k : MaskingKey) (n : ℕ) : Prop :=
  n = 0 ∨ k.k0 = k.k3 ∧ (n = 1 ∨ k.k1 = k.k2)

theorem MaskingKey.octet_eq_iff (k : MaskingKey) (n : ℕ) :
    (∀ i < n, k.octet (3 - i % 4) = k.octet (i % 4)) ↔ k.Palindromic n := by
  constructor
  · intro h
    rcases n with - | - | n
    · exact Or.inl rfl
    · exact Or.inr ⟨(h 0 (by omega)).symm, Or.inl rfl⟩
    · exact Or.inr ⟨(h 0 (by omega)).symm, Or.inr (h 1 (by omega)).symm⟩
  · rintro (rfl | ⟨h03, h12⟩) i hi
    · omega
    have hlt : i % 4 < 4 := Nat.mod_lt i (by omega)
    -- the inner octets are used from the second payload octet on
    rcases h12 with rfl | h12
    · have h0 : i = 0 := by omega
      subst h0
      exact h03.symm
    · interval_cases i % 4
      · exact h03.symm
      · exact h12.symm
      · exact h12
      · exact h03

namespace FrameCodec

/-- The mask of the codec is the prescribed one exactly where the key is
palindromic. -/
theorem applyMask_eq_apply_iff (k : MaskingKey) (data : Bytes) :
    applyMask k.value data = k.apply data ↔ k.Palindromic data.length := by
  rw [← k.octet_eq_iff, applyMask_value, MaskingKey.apply]
  constructor
  · intro h i hi
    have hi' := congrArg (fun l : Bytes => l[i]?) h
    simpa [List.getElem?_mapIdx, List.getElem?_eq_getElem hi] using hi'
  · intro h
    apply List.ext_getElem?
    intro i
    rw [List.getElem?_mapIdx, List.getElem?_mapIdx]
    rcases Nat.lt_or_ge i data.length with hi | hi
    · rw [h i hi]
    · rw [List.getElem?_eq_none hi]
      rfl

/-- **When the masking is the prescribed one.** A complete masked frame, with its
length in any of the three forms, is unmasked as the protocol prescribes exactly
if its key is palindromic as far as the payload uses it; and the same condition
on the key that `encode` emits decides whether what it emits behind the key is
the payload masked as prescribed. -/
theorem mask_iff (w : WireFrame) (k : MaskingKey) (hk : w.key = some k) (rest : Bytes)
    (frame f : Frame) (hf : f.mask = true) :
    (∃ f', decode (w.octets ++ rest) frame = .ok (w.octets.length, f')
      ∧ (f'.payload.val = k.apply w.payload.val ↔ k.Palindromic w.payload.val.length))
    ∧ ∃ (header : Bytes) (k' : MaskingKey) (masked : Bytes),
      encode f = header ++ k'.octets ++ masked ∧ masked.length = f.payload.val.length
        ∧ (masked = k'.apply f.payload.val ↔ k'.Palindromic f.payload.val.length) := by
  constructor
  · refine ⟨w.frame, w.decode_octets rest frame, ?_⟩
    have hpay : w.frame.payload.val = applyMask k.value w.payload.val := by
      simp [WireFrame.frame, hk, WireFrame.keyValue]
    rw [hpay]
    exact applyMask_eq_apply_iff k _
  · have henc := WireFrame.encode_eq f
    rw [WireFrame.encodeHeader_eq, if_pos hf, if_pos hf] at henc
    let form := LengthForm.shortest f.payloadLen.toNat
    refine ⟨((if f.fin then 0x80 else 0x00) ||| (f.opcode.value &&& 0x0F))
      :: (0x80 ||| form.code f.payloadLen.toNat) :: form.extended f.payloadLen.toNat,
      .ofValue f.maskingKey, applyMask f.maskingKey f.payload.val, ?_, length_applyMask _ _, ?_⟩
    · rw [henc, if_pos hf]
      simp only [form, List.cons_append, List.append_assoc]
    · have h := applyMask_eq_apply_iff (.ofValue f.maskingKey) f.payload.val
      rwa [MaskingKey.value_ofValue] at h

/-- The prescribed masking of `48 69` with the key `01 02 03 04` is `49 6b`. The codec
unmasks that to `4d 68`, and masks `48 69` with the same key as `4c 6a`. -/
theorem mask_not_prescribed :
    MaskingKey.apply ⟨1, 2, 3, 4⟩ [0x48, 0x69] = [0x49, 0x6B]
    ∧ (∃ f, decode [0x81, 0x82, 1, 2, 3, 4, 0x49, 0x6B] {} = .ok (8, f)
        ∧ f.payload.val = [0x4D, 0x68]
        ∧ f.payload.val ≠ MaskingKey.apply ⟨1, 2, 3, 4⟩ [0x49, 0x6B])
    ∧ encode ⟨true, .text, true, 2, 0x01020304, ⟨[0x48, 0x69], by decide⟩⟩
        = [0x81, 0x82, 1, 2, 3, 4, 0x4C, 0x6A] :=
  ⟨by decide, ⟨_, rfl, by decide, by decide⟩, by decide⟩

/-- The frame that `48 69` travels in, masked as prescribed. -/
def maskedHi : WireFrame :=
  ⟨0x81, .bits7, some ⟨1, 2, 3, 4⟩, ⟨[0x49, 0x6B], by decide⟩, by unfold LengthForm.Fits; decide⟩

/-- The criterion on a received frame and on one to be sent. -/
theorem mask_iff_hi :
    (∃ f, decode (maskedHi.octets ++ []) {} = .ok (maskedHi.octets.length, f)
        ∧ (f.payload.val = MaskingKey.apply ⟨1, 2, 3, 4⟩ maskedHi.payload.val
          ↔ MaskingKey.Palindromic ⟨1, 2, 3, 4⟩ maskedHi.payload.val.length))
    ∧ ∃ (header : Bytes) (k : MaskingKey) (masked : Bytes),
      encode ⟨true, .text, true, 2, 0x01020304, ⟨[0x48, 0x69], by decide⟩⟩
        = header ++ k.octets ++ masked ∧ masked.length = 2
        ∧ (masked = k.apply [0x48, 0x69] ↔ k.Palindromic 2) :=
  mask_iff maskedHi ⟨1, 2, 3, 4⟩ rfl [] {}
    ⟨true, .text, true, 2, 0x01020304, ⟨[0x48, 0x69], by decide⟩⟩ rfl

end FrameCodec
