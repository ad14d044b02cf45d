import HttpServer.WebsocketFrame

/-!
# What the peer can make the frame decoder do

`FrameCodec::Decode` on arbitrary octets. The length of the payload is a number of up to 64 bits
that the peer chooses, and the test whether the payload is there adds it to the length of the
header, in 64 bits. Where the sum is too large for these, what remains of it is less than the
length of the header, the test passes, and `resize` is asked for more than there can be.
`decode_safe_iff` says that this is the only way in which the decoder fails: everywhere else it
returns zero, or the octets of the frame with a payload read from inside the data.
-/

namespace FrameCodec

/-! ## The header that the data announce -/

/-- The second octet, which says how the header goes on. -/
def secondOctet (data : Bytes) : UInt8 := data.getD 1 0

/-- How many octets the extended length takes. -/
def extendedLength (data : Bytes) : ℕ :=
  if secondOctet data &&& 0x7F = 126 then 2
  else if secondOctet data &&& 0x7F = 127 then 8
  else 0

/-- The length of the header: two octets, the extended length, and the key. -/
def headerLength (data : Bytes) : ℕ :=
  2 + extendedLength data + (if secondOctet data &&& 0x80 != 0 then 4 else 0)

/-- The length of the payload that the header declares. -/
def declaredLength (data : Bytes) : ℕ :=
  if extendedLength data = 0 then (secondOctet data &&& 0x7F).toNat
  else BigEndian.value ((data.drop 2).take (extendedLength data))

/-- The header is there, and its length and that of the payload are not one number of 64
bits. -/
def WrapsAround (data : Bytes) : Prop :=
  headerLength data ≤ data.length ∧ 2 ^ 64 ≤ headerLength data + declaredLength data

instance (data : Bytes) : Decidable (WrapsAround data) := inferInstanceAs (Decidable (_ ∧ _))

/-- What was decoded lies inside the data: `n` octets, the header and then a payload of the
declared length, each octet of which was read behind the header. -/
structure Inside (data : Bytes) (n : ℕ) (f : Frame) : Prop where
  two_le : 2 ≤ n
  le_length : n ≤ data.length
  eq_add : n = headerLength data + f.payload.val.length
  payloadLen : f.payload.val.length = f.payloadLen.toNat
  declared : f.payloadLen.toNat = declaredLength data
  octets : f.payload.val = (if f.mask then applyMask f.maskingKey else id)
    ((data.drop (headerLength data)).take f.payload.val.length)

/-- **`Decode` is safe on the data**: it does not throw, and returns zero or a frame that lies
inside the data. -/
def DecodesSafely (data : Bytes) (frame : Frame) : Prop :=
  ∃ n f, decode data frame = .ok (n, f) ∧ (n = 0 ∨ Inside data n f)

theorem extendedLength_le (data : Bytes) : extendedLength data ≤ 8 := by
  unfold extendedLength
  split_ifs <;> omega

theorem headerLength_le (data : Bytes) : headerLength data ≤ 14 := by
  have h := extendedLength_le data
  unfold headerLength
  split_ifs <;> omega

theorem declaredLength_lt (data : Bytes) : declaredLength data < 2 ^ 64 := by
  unfold declaredLength
  split_ifs with h
  · exact (UInt8.toNat_lt _).trans (by decide)
  · have hvalue := BigEndian.value_lt ((data.drop 2).take (extendedLength data))
    have hlen : ((data.drop 2).take (extendedLength data)).length ≤ 8 :=
      (List.length_take_le _ _).trans (extendedLength_le data)
    exact hvalue.trans_le ((Nat.pow_le_pow_right (by decide) hlen).trans (by decide))

/-! ## The decoder reads that header -/

theorem decodeLength_eq (byte0 byte1 : UInt8) (tl : Bytes) :
    decodeLength (byte0 :: byte1 :: tl) byte1
      = if (byte0 :: byte1 :: tl).length < 2 + extendedLength (byte0 :: byte1 :: tl) then none
        else some (.ofNat (declaredLength (byte0 :: byte1 :: tl)),
          2 + extendedLength (byte0 :: byte1 :: tl)) := by
  have hsecond : secondOctet (byte0 :: byte1 :: tl) = byte1 := rfl
  rcases octet_and_cases byte1 with h7 | h16 | h64
  · have hne126 : byte1 &&& 0x7F ≠ 126 := by
      intro h
      rw [h] at h7
      exact absurd h7 (by decide)
    have hne127 : byte1 &&& 0x7F ≠ 127 := by
      intro h
      rw [h] at h7
      exact absurd h7 (by decide)
    have hext : extendedLength (byte0 :: byte1 :: tl) = 0 := by
      rw [extendedLength, hsecond, if_neg hne126, if_neg hne127]
    have hdeclared : declaredLength (byte0 :: byte1 :: tl) = (byte1 &&& 0x7F).toNat := by
      rw [declaredLength, if_pos hext, hsecond]
    have hnum : (byte1 &&& 0x7F).toUInt64 = UInt64.ofNat (byte1 &&& 0x7F).toNat :=
      UInt64.toNat_inj.mp (by
        rw [UInt8.toNat_toUInt64, UInt64.toNat_ofNat',
          Nat.mod_eq_of_lt ((UInt8.toNat_lt _).trans (by decide))])
    rw [decodeLength_bits7 _ h7, hext, hdeclared, if_neg (by simp), hnum]
  · have hext : extendedLength (byte0 :: byte1 :: tl) = 2 := by
      rw [extendedLength, hsecond, if_pos h16]
    have hdeclared : declaredLength (byte0 :: byte1 :: tl)
        = (readUint64 (byte0 :: byte1 :: tl) 2 2).toNat := by
      rw [declaredLength, hext, if_neg (by decide), toNat_readUint64 _ _ (by decide)]
    rw [decodeLength_bits16 _ h16, hext, hdeclared, UInt64.ofNat_toNat]
  · have hext : extendedLength (byte0 :: byte1 :: tl) = 8 := by
      rw [extendedLength, hsecond, if_neg (by rw [h64]; decide), if_pos h64]
    have hdeclared : declaredLength (byte0 :: byte1 :: tl)
        = (readUint64 (byte0 :: byte1 :: tl) 2 8).toNat := by
      rw [declaredLength, hext, if_neg (by decide), toNat_readUint64 _ _ (by decide)]
    rw [decodeLength_bits64 _ h64, hext, hdeclared, UInt64.ofNat_toNat]

/-- Where a key is missing, the header is not complete. -/
theorem lt_of_decodeKey_eq_none {data : Bytes} {pos : ℕ} {mask : Bool}
    (h : decodeKey data mask pos = none) : data.length < pos + (if mask then 4 else 0) := by
  unfold decodeKey at h
  cases mask with
  | false => cases h
  | true =>
    rw [if_pos rfl] at h ⊢
    by_contra hroom
    rw [if_neg hroom] at h
    cases h

/-- Where the key ends, the header ends. -/
theorem pos_of_decodeKey {data : Bytes} {key : UInt32} {pos pos' : ℕ} {mask : Bool}
    (hpos : pos ≤ data.length) (h : decodeKey data mask pos = some (key, pos')) :
    pos' = pos + (if mask then 4 else 0) ∧ pos' ≤ data.length := by
  unfold decodeKey at h
  cases mask with
  | false =>
    cases h
    exact ⟨rfl, hpos⟩
  | true =>
    rw [if_pos rfl] at h
    by_cases hroom : data.length < pos + 4
    · rw [if_pos hroom] at h
      cases h
    · rw [if_neg hroom] at h
      cases h
      exact ⟨rfl, Nat.not_lt.mp hroom⟩

/-- The decoder after the first two octets. -/
theorem decode_cons_cons (byte0 byte1 : UInt8) (tl : Bytes) (frame : Frame) :
    let data := byte0 :: byte1 :: tl
    let started : Frame := { frame with
      fin := byte0 &&& 0x80 != 0, opcode := ⟨byte0 &&& 0x0F⟩, mask := byte1 &&& 0x80 != 0 }
    decode data frame
      = match decodeLength data byte1 with
        | none => .ok (0, started)
        | some (payloadLen, pos) =>
          match decodeKey data (byte1 &&& 0x80 != 0) pos with
          | none => .ok (0, started)
          | some (maskingKey, pos) =>
            if data.length < (UInt64.ofNat pos + payloadLen).toNat then .ok (0, started)
            else decodePayload data pos payloadLen maskingKey started :=
  rfl

/-- **What the decoder does.** With the header incomplete it returns zero; with the header there,
all depends on the sum of the two lengths, taken modulo `2 ^ 64`. -/
theorem decode_cases (data : Bytes) (frame : Frame) :
    (data.length < headerLength data ∧ ∃ f, decode data frame = .ok (0, f))
    ∨ headerLength data ≤ data.length ∧ ∃ (key : UInt32) (f : Frame),
        f.mask = (secondOctet data &&& 0x80 != 0)
        ∧ decode data frame
          = if data.length < (headerLength data + declaredLength data) % 2 ^ 64 then .ok (0, f)
            else decodePayload data (headerLength data) (.ofNat (declaredLength data)) key f := by
  match data with
  | [] => exact Or.inl ⟨by decide, frame, rfl⟩
  | [b] =>
    refine Or.inl ⟨?_, frame, rfl⟩
    show 1 < headerLength [b]
    unfold headerLength
    omega
  | byte0 :: byte1 :: tl =>
    generalize hdata : byte0 :: byte1 :: tl = data
    have hsecond : secondOctet data = byte1 := by rw [← hdata]; rfl
    set started : Frame := { frame with
      fin := byte0 &&& 0x80 != 0, opcode := ⟨byte0 &&& 0x0F⟩, mask := byte1 &&& 0x80 != 0 }
    have hdecode := decode_cons_cons byte0 byte1 tl frame
    rw [hdata] at hdecode
    have hlength := decodeLength_eq byte0 byte1 tl
    rw [hdata] at hlength
    rw [hdecode, hlength]
    by_cases hext : data.length < 2 + extendedLength data
    · refine Or.inl ⟨Nat.lt_of_lt_of_le hext (Nat.le_add_right _ _), started, ?_⟩
      rw [if_pos hext]
    · rw [if_neg hext]
      simp only
      cases hkey : decodeKey data (byte1 &&& 0x80 != 0) (2 + extendedLength data) with
      | none =>
        have hlt := lt_of_decodeKey_eq_none hkey
        rw [← hsecond] at hlt
        exact Or.inl ⟨hlt, started, rfl⟩
      | some kp =>
        obtain ⟨key, pos⟩ := kp
        obtain ⟨hpos, hroom⟩ := pos_of_decodeKey (Nat.not_lt.mp hext) hkey
        have hheader : pos = headerLength data := by rw [hpos, headerLength, hsecond]
        have hsum : (UInt64.ofNat pos + UInt64.ofNat (declaredLength data)).toNat
            = (headerLength data + declaredLength data) % 2 ^ 64 := by
          have hsmall := headerLength_le data
          rw [UInt64.toNat_add, UInt64.toNat_ofNat', UInt64.toNat_ofNat', hheader,
            Nat.mod_eq_of_lt (declaredLength_lt data),
            Nat.mod_eq_of_lt (a := headerLength data) (by omega)]
        refine Or.inr ⟨hheader ▸ hroom, key, started, by rw [hsecond], ?_⟩
        show (if data.length < (UInt64.ofNat pos + UInt64.ofNat (declaredLength data)).toNat then
          _ else _) = _
        rw [hsum, hheader]

/-- **A length that wraps around makes `resize` throw.** -/
theorem decode_of_wrapsAround {data : Bytes} (frame : Frame) (h : WrapsAround data) :
    decode data frame = .error .lengthError := by
  obtain ⟨hlt, -⟩ | ⟨-, key, f, -, hdecode⟩ := decode_cases data frame
  · exact absurd h.1 (Nat.not_le.mpr hlt)
  · have hheader := headerLength_le data
    have hdeclared := declaredLength_lt data
    have hwrap := h.2
    -- what is left of the sum is less than the header
    have htest : ¬ data.length < (headerLength data + declaredLength data) % 2 ^ 64 := by
      have hroom := h.1
      omega
    have hmax : ¬ (UInt64.ofNat (declaredLength data)).toNat ≤ vectorMaxSize := by
      rw [UInt64.toNat_ofNat', Nat.mod_eq_of_lt hdeclared]
      unfold vectorMaxSize
      omega
    rw [hdecode, if_neg htest, decodePayload, dif_neg hmax]

/-- **Any other length is one that the data have room for, or the frame is incomplete.** -/
theorem decodesSafely_of_not_wrapsAround {data : Bytes} (frame : Frame)
    (hmax : data.length ≤ vectorMaxSize) (h : ¬ WrapsAround data) : DecodesSafely data frame := by
  obtain ⟨-, f, hdecode⟩ | ⟨hroom, key, f, hmask, hdecode⟩ := decode_cases data frame
  · exact ⟨0, f, hdecode, Or.inl rfl⟩
  · have hsum : headerLength data + declaredLength data < 2 ^ 64 :=
      Nat.lt_of_not_le fun hle => h ⟨hroom, hle⟩
    rw [Nat.mod_eq_of_lt hsum] at hdecode
    by_cases hlt : data.length < headerLength data + declaredLength data
    · rw [if_pos hlt] at hdecode
      exact ⟨0, f, hdecode, Or.inl rfl⟩
    · rw [if_neg hlt] at hdecode
      have hnat : (UInt64.ofNat (declaredLength data)).toNat = declaredLength data := by
        rw [UInt64.toNat_ofNat', Nat.mod_eq_of_lt (declaredLength_lt data)]
      have hfits : (UInt64.ofNat (declaredLength data)).toNat ≤ vectorMaxSize := by
        rw [hnat]
        omega
      rw [decodePayload, dif_pos hfits] at hdecode
      have hsize : (UInt64.ofNat (headerLength data)
          + UInt64.ofNat (declaredLength data)).toNat
          = headerLength data + declaredLength data := by
        have hsmall := headerLength_le data
        rw [UInt64.toNat_add, hnat, UInt64.toNat_ofNat',
          Nat.mod_eq_of_lt (a := headerLength data) (by omega), Nat.mod_eq_of_lt hsum]
      have hcopied : ((data.drop (headerLength data)).take (declaredLength data)).length
          = declaredLength data := by
        refine List.length_take_of_le ?_
        rw [List.length_drop]
        omega
      have hmasked : ∀ l : Bytes, l.length = declaredLength data →
          (if f.mask && 0 < UInt64.ofNat (declaredLength data) then applyMask key l else l)
            = (if f.mask then applyMask key else id) l := by
        intro l hl
        rw [ite_applyMask f.mask key fun h0 => ?_]
        · cases f.mask <;> rfl
        · rw [h0] at hnat
          exact List.length_eq_zero_iff.mp (hl.trans hnat.symm)
      have hlength : ((if f.mask then applyMask key else id)
          ((data.drop (headerLength data)).take (declaredLength data))).length
          = declaredLength data := by
        cases f.mask
        · exact hcopied
        · exact (length_applyMask _ _).trans hcopied
      simp only [hnat, hsize, hmasked _ hcopied] at hdecode
      have hheader : 2 ≤ headerLength data := by
        unfold headerLength
        omega
      refine ⟨_, _, hdecode, Or.inr ⟨?_, ?_, ?_, ?_, hnat, ?_⟩⟩
      · exact hheader.trans (Nat.le_add_right _ _)
      · exact Nat.not_lt.mp hlt
      · exact congrArg (headerLength data + ·) hlength.symm
      · exact hlength.trans hnat.symm
      · simp only [hlength]

/-- **When the decoder is safe.** On the contents of a vector `Decode` does not throw and
decodes nothing from outside, except where the header is complete and declares a length that
wraps around. -/
theorem decode_safe_iff (data : ByteVector) (frame : Frame) :
    DecodesSafely data.val frame ↔ ¬ WrapsAround data.val := by
  refine ⟨fun hsafe hwrap => ?_, decodesSafely_of_not_wrapsAround frame data.property⟩
  obtain ⟨n, f, hdecode, -⟩ := hsafe
  rw [decode_of_wrapsAround frame hwrap] at hdecode
  cases hdecode

/-- Ten octets of a client that sends no payload at all: a binary frame that declares
`2 ^ 64 - 1` octets. -/
def hugeFrame : ByteVector :=
  ⟨[0x82, 0x7F, 0xFF, 0xFF, 0xFF, 0xFF, 0xFF, 0xFF, 0xFF, 0xFF], by decide⟩

theorem decode_not_safe :
    ¬ ∀ (data : ByteVector) (frame : Frame), DecodesSafely data.val frame :=
  fun h => (decode_safe_iff hugeFrame {}).mp (h hugeFrame {}) (by decide)

end FrameCodec
