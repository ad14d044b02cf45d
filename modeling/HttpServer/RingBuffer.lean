import HttpServer.Circular
import HttpServer.Cpp
import HttpServer.Fifo
import HttpServer.Machine

/-!
# The ring buffer

`RingBuffer` of `core/net/buffer.cpp`: a vector of bytes with a read and a write
position. One cell stays unused so that equal positions mean *empty*; emptying
the buffer puts both positions back to zero; a write that does not fit doubles
the capacity until it does and copies the contents to the front of the new
vector.

What it is for is a FIFO queue of bytes (`Fifo`), and `RingBuffer.contents`, a
circular window, is what it holds. Every operation does to the contents what the
queue does – with one exception. `expandIfNeeded` computes the new write position
with `readable_bytes()` *after* it has set the read position to zero, so it keeps
the old write position instead of the number of bytes copied. The two agree
exactly when the read position was zero already. `ringBuffer_refines_iff` is
therefore an equivalence: the buffer is a FIFO queue in a run exactly when no
step of the run has to grow it while its read position is positive.
-/

/-- `RingBuffer`: `buffer_`, `read_pos_` and `write_pos_`. -/
structure RingBuffer where
  buffer : Bytes
  readPos : ℕ
  writePos : ℕ
  deriving DecidableEq, Repr

/-- `RingBuffer::Iovec`. A pointer into `buffer_` is the offset it points to, and
`none` is `nullptr`. -/
structure Iovec where
  data : Option ℕ
  len : ℕ
  deriving DecidableEq, Repr

namespace RingBuffer

/-! ## The source -/

/-- The constructor. -/
def make (initialCapacity : ℕ) : Except StdException RingBuffer :=
  if initialCapacity = 0 then .error .invalidArgument
  else .ok ⟨List.replicate (max initialCapacity 4) 0, 0, 0⟩

def capacity (rb : RingBuffer) : ℕ := rb.buffer.length

def readableBytes (rb : RingBuffer) : ℕ :=
  if rb.readPos ≤ rb.writePos then rb.writePos - rb.readPos
  else rb.capacity - (rb.readPos - rb.writePos)

def writableBytes (rb : RingBuffer) : ℕ :=
  let total := rb.capacity - rb.readableBytes
  if 0 < total then total - 1 else 0

def empty (rb : RingBuffer) : Bool := rb.readableBytes == 0

def full (rb : RingBuffer) : Bool := rb.writableBytes == 0

def backCapacity (rb : RingBuffer) : ℕ :=
  if rb.writePos < rb.readPos then rb.readPos - rb.writePos
  else rb.capacity - rb.writePos

def writableAreas (rb : RingBuffer) : Iovec × Iovec :=
  if rb.full then (⟨none, 0⟩, ⟨none, 0⟩)
  else if rb.writePos < rb.readPos then
    (⟨some rb.writePos, rb.readPos - rb.writePos - 1⟩, ⟨none, 0⟩)
  else if 0 < rb.readPos then
    if rb.writePos = 0 then (⟨some rb.writePos, rb.capacity - 1⟩, ⟨none, 0⟩)
    else (⟨some rb.writePos, rb.capacity - rb.writePos⟩, ⟨some 0, rb.readPos⟩)
  else (⟨some rb.writePos, rb.capacity - rb.writePos - 1⟩, ⟨none, 0⟩)

def readableAreas (rb : RingBuffer) : Iovec × Iovec :=
  if rb.empty then (⟨none, 0⟩, ⟨none, 0⟩)
  else if rb.readPos < rb.writePos then
    (⟨some rb.readPos, rb.writePos - rb.readPos⟩, ⟨none, 0⟩)
  else if 0 < rb.writePos then
    (⟨some rb.readPos, rb.capacity - rb.readPos⟩, ⟨some 0, rb.writePos⟩)
  else (⟨some rb.readPos, rb.capacity - rb.readPos⟩, ⟨none, 0⟩)

/-- The bytes an `Iovec` of the buffer points to. -/
def bytesAt (rb : RingBuffer) (v : Iovec) : Bytes :=
  match v.data with
  | none => []
  | some off => (rb.buffer.drop off).take v.len

/-- The loop of `expand_if_needed` that doubles `new_capacity` in `size_t`. It
gives `none` if it has not stopped after 65 tests: by then 64 doublings have made
`new_capacity` zero, which the next doubling leaves as it is. -/
def growLoop : ℕ → UInt64 → UInt64 → UInt64 → Option UInt64
  | 0, _, _, _ => none
  | fuel + 1, newCapacity, readable, len =>
    if newCapacity - readable - 1 < len then growLoop fuel (newCapacity * 2) readable len
    else some newCapacity

/-- `expand_if_needed`. `none` is a call that does not return, the loop above
going on forever; the allocation of the new vector throws beyond `max_size()`.

The write position is `readable_bytes()` of the buffer whose vector has been
swapped and whose read position is zero already. A doubling that has wrapped around
can give a vector with fewer cells than there are stored bytes; the copies leave it
then, and the list that stands for it is as long as what has been copied. -/
def expandIfNeeded (rb : RingBuffer) (len : ℕ) : Option (Except StdException RingBuffer) :=
  if len ≤ rb.writableBytes then some (.ok rb)
  else
    (growLoop 65 (.ofNat rb.capacity) (.ofNat rb.readableBytes) (.ofNat len)).map
      fun newCapacity =>
        if vectorMaxSize < newCapacity.toNat then .error .lengthError
        else
          let newBuffer : Bytes := List.replicate newCapacity.toNat 0
          let areas := rb.readableAreas
          let first := rb.bytesAt areas.1
          let second := rb.bytesAt areas.2
          let newBuffer :=
            if rb.empty then newBuffer
            else Circular.overwrite (Circular.overwrite newBuffer 0 first) first.length second
          let rb : RingBuffer := { rb with buffer := newBuffer, readPos := 0 }
          .ok { rb with writePos := rb.readableBytes }

/-- The second half of `write`, after `expand_if_needed`: as much of `data` as fits
is copied behind the write position, in two parts if it reaches the end of the
vector. -/
def copyIn (rb : RingBuffer) (data : Bytes) : RingBuffer × ℕ :=
  let writeLen := min data.length rb.writableBytes
  if writeLen = 0 then (rb, 0)
  else
    let back := rb.backCapacity
    let src := data.take writeLen
    let buffer :=
      if writeLen ≤ back then Circular.overwrite rb.buffer rb.writePos src
      else
        Circular.overwrite (Circular.overwrite rb.buffer rb.writePos (src.take back)) 0
          (src.drop back)
    (⟨buffer, rb.readPos, (rb.writePos + writeLen) % rb.capacity⟩, writeLen)

/-- `write` of the bytes `data` points to. -/
def write (rb : RingBuffer) (data : Bytes) : Option (Except StdException (RingBuffer × ℕ)) :=
  if data.length = 0 then some (.ok (rb, 0))
  else (rb.expandIfNeeded data.length).map fun r => r.map fun rb => rb.copyIn data

def hasWritten (rb : RingBuffer) (len : ℕ) : Except StdException RingBuffer :=
  if rb.writableBytes < len then .error .outOfRange
  else .ok { rb with writePos := (rb.writePos + len) % rb.capacity }

def hasRead (rb : RingBuffer) (len : ℕ) : Except StdException RingBuffer :=
  if rb.readableBytes < len then .error .outOfRange
  else
    let readPos := (rb.readPos + len) % rb.capacity
    if readPos = rb.writePos then .ok { rb with readPos := 0, writePos := 0 }
    else .ok { rb with readPos := readPos }

/-- `read` into a region of `len` bytes: the bytes copied there, whose number is
what the call returns. -/
def read (rb : RingBuffer) (len : ℕ) : Except StdException (RingBuffer × Bytes) :=
  if len = 0 || rb.empty then .ok (rb, [])
  else
    let readLen := min len rb.readableBytes
    let back := rb.capacity - rb.readPos
    let dst :=
      if readLen ≤ back then (rb.buffer.drop rb.readPos).take readLen
      else (rb.buffer.drop rb.readPos).take back ++ rb.buffer.take (readLen - back)
    (rb.hasRead readLen).map fun rb => (rb, dst)

def readString (rb : RingBuffer) (len : ℕ) : Except StdException (RingBuffer × Bytes) :=
  if len = 0 || rb.empty then .ok (rb, [])
  else rb.read (min len rb.readableBytes)

def ensureWritable (rb : RingBuffer) (len : ℕ) : Option (Except StdException RingBuffer) :=
  rb.expandIfNeeded len

/-! ## Well-formed states and what they hold -/

/-- The states of the class: at least four cells, both positions inside. -/
structure WellFormed (rb : RingBuffer) : Prop where
  four_le : 4 ≤ rb.capacity
  readPos_lt : rb.readPos < rb.capacity
  writePos_lt : rb.writePos < rb.capacity

/-- **The stored bytes**, in reading order. -/
def contents (rb : RingBuffer) : Bytes :=
  Circular.window rb.buffer rb.readPos rb.readableBytes

variable {rb : RingBuffer}

theorem WellFormed.readableBytes_lt (h : rb.WellFormed) : rb.readableBytes < rb.capacity := by
  have := h.readPos_lt
  have := h.writePos_lt
  unfold readableBytes
  split <;> omega

/-- The write position is where the stored bytes end. -/
theorem WellFormed.add_readableBytes_mod (h : rb.WellFormed) :
    (rb.readPos + rb.readableBytes) % rb.capacity = rb.writePos := by
  have hr := h.readPos_lt
  have hw := h.writePos_lt
  rw [Circular.mod_eq_ite (by have := h.readableBytes_lt; omega)]
  unfold readableBytes
  split_ifs <;> omega

/-- The two positions determine the number of stored bytes. -/
theorem WellFormed.readableBytes_unique (h : rb.WellFormed) {k : ℕ} (hk : k < rb.capacity)
    (he : (rb.readPos + k) % rb.capacity = rb.writePos) : rb.readableBytes = k := by
  have hr := h.readPos_lt
  have hw := h.writePos_lt
  rw [Circular.mod_eq_ite (by omega)] at he
  unfold readableBytes
  split_ifs at he ⊢ <;> omega

theorem WellFormed.writableBytes_eq (h : rb.WellFormed) :
    rb.writableBytes + rb.readableBytes + 1 = rb.capacity := by
  have := h.readableBytes_lt
  simp only [writableBytes]
  split <;> omega

theorem WellFormed.length_contents (h : rb.WellFormed) :
    rb.contents.length = rb.readableBytes :=
  Circular.length_window h.readableBytes_lt.le

theorem empty_iff_readableBytes : rb.empty = true ↔ rb.readableBytes = 0 := beq_iff_eq

theorem WellFormed.contents_of_empty (h : rb.WellFormed) (he : rb.empty = true) :
    rb.contents = [] :=
  List.length_eq_zero_iff.mp (h.length_contents.trans (empty_iff_readableBytes.mp he))

/-- The readable areas, one after the other, are the stored bytes. -/
theorem WellFormed.bytesAt_readableAreas (h : rb.WellFormed) :
    rb.bytesAt rb.readableAreas.1 ++ rb.bytesAt rb.readableAreas.2 = rb.contents := by
  have hr : rb.readPos < rb.buffer.length := h.readPos_lt
  have hw : rb.writePos < rb.buffer.length := h.writePos_lt
  unfold readableAreas contents
  by_cases he : rb.empty
  · have hz := empty_iff_readableBytes.mp he
    simp [he, hz, bytesAt]
  · have hz := mt empty_iff_readableBytes.mpr he
    have hlt := h.readableBytes_lt
    by_cases hwr : rb.readPos < rb.writePos
    · have hn : rb.readableBytes = rb.writePos - rb.readPos := by
        unfold readableBytes; rw [if_pos hwr.le]
      rw [if_neg he, if_pos hwr, hn, Circular.window_of_le (by omega)]
      simp [bytesAt]
    · have hn : rb.readPos + rb.readableBytes = rb.capacity + rb.writePos := by
        unfold readableBytes at hz ⊢
        split_ifs at hz ⊢ <;> omega
      rw [if_neg he, if_neg hwr, Circular.window_of_ge hr.le (by unfold capacity at hn; omega)
        hlt.le, show rb.readPos + rb.readableBytes - rb.buffer.length = rb.writePos by
          unfold capacity at hn; omega]
      have hback : (rb.buffer.drop rb.readPos).take (rb.capacity - rb.readPos)
          = rb.buffer.drop rb.readPos :=
        List.take_of_length_le (by rw [List.length_drop]; exact Nat.le_refl _)
      by_cases hp : 0 < rb.writePos
      · simp [hp, bytesAt, hback]
      · have hp0 : rb.writePos = 0 := by omega
        simp [hp0, bytesAt, hback]

/-- The readable areas copied to the front of another vector, as `expand_if_needed` and
`shrink_to_fit` do. -/
theorem WellFormed.overwrite_areas (h : rb.WellFormed) (newBuffer : Bytes) :
    Circular.overwrite (Circular.overwrite newBuffer 0 (rb.bytesAt rb.readableAreas.1))
        (rb.bytesAt rb.readableAreas.1).length (rb.bytesAt rb.readableAreas.2)
      = rb.contents ++ newBuffer.drop rb.readableBytes := by
  have hcont := h.bytesAt_readableAreas
  have hfs : (rb.bytesAt rb.readableAreas.1).length + (rb.bytesAt rb.readableAreas.2).length
      = rb.readableBytes := by
    rw [← List.length_append, hcont, h.length_contents]
  simp [Circular.overwrite, ← hcont, ← hfs, List.drop_append]

/-- A state that is read from the first cell on. -/
theorem wellFormed_of_front {buffer : Bytes} {n : ℕ} (hfour : 4 ≤ buffer.length)
    (hn : n < buffer.length) : (⟨buffer, 0, n⟩ : RingBuffer).WellFormed :=
  ⟨hfour, Nat.zero_lt_of_lt hn, hn⟩

/-- What is stored from the first cell on is the front of the vector. -/
theorem contents_of_front {buffer : Bytes} {n : ℕ} (hn : n ≤ buffer.length) :
    (⟨buffer, 0, n⟩ : RingBuffer).contents = buffer.take n := by
  show Circular.window buffer 0 (if 0 ≤ n then n - 0 else _) = _
  rw [if_pos (Nat.zero_le _), Nat.sub_zero, Circular.window_of_le (by omega), List.drop_zero]

/-! ## Growing -/

/-- **The test of the doubling loop**: whether the new capacity is too small, or, if it
has wrapped around to no more than what is stored, whether it would be with `2 ^ 64`
cells more. -/
theorem growTest_iff {c r n : ℕ} (hr : r < 2 ^ 63) (hn : n < 2 ^ 64) :
    UInt64.ofNat c - UInt64.ofNat r - 1 < UInt64.ofNat n ↔
      if r < c % 2 ^ 64 then c % 2 ^ 64 < r + n + 1 else 2 ^ 64 + c % 2 ^ 64 < r + n + 1 := by
  have hn' : (UInt64.ofNat n).toNat = n := by rw [UInt64.toNat_ofNat', Nat.mod_eq_of_lt hn]
  have hdiff : (UInt64.ofNat c - UInt64.ofNat r - 1).toNat
      = (2 ^ 64 - 1 + (2 ^ 64 - r + c % 2 ^ 64) % 2 ^ 64) % 2 ^ 64 := by
    rw [UInt64.toNat_sub, UInt64.toNat_sub, UInt64.toNat_ofNat', UInt64.toNat_ofNat',
      UInt64.toNat_one, Nat.mod_eq_of_lt (show r < 2 ^ 64 by omega)]
  have hc := Nat.mod_lt c (show 0 < 2 ^ 64 by omega)
  rw [UInt64.lt_iff_toNat_lt, hn', hdiff]
  split_ifs <;> omega

/-- Where nothing overflows. -/
theorem growTest_iff_of_lt {c r n : ℕ} (hr : r < c) (hn : n < 2 ^ 61) (hc : c ≤ 2 ^ 62) :
    UInt64.ofNat c - UInt64.ofNat r - 1 < UInt64.ofNat n ↔ c < r + n + 1 := by
  rw [growTest_iff (by omega) (by omega), Nat.mod_eq_of_lt (by omega), if_pos hr]

/-- **The doubling loop stops at a large enough capacity** where nothing
overflows: from a capacity that holds the stored bytes, as long as less than
`2 ^ 61` bytes have to fit. -/
theorem growLoop_eq {fuel c r n : ℕ} (hr : r < c) (hn : r + n < 2 ^ 61) (hc : c ≤ 2 ^ 62)
    (hfuel : r + n + 1 ≤ c * 2 ^ fuel) :
    ∃ c', growLoop (fuel + 1) (.ofNat c) (.ofNat r) (.ofNat n) = some (.ofNat c')
      ∧ c ≤ c' ∧ c' ≤ 2 ^ 62 ∧ r + n + 1 ≤ c' := by
  have htest := growTest_iff_of_lt hr (show n < 2 ^ 61 by omega) hc
  induction fuel generalizing c with
  | zero =>
    have hle : r + n + 1 ≤ c := by simpa using hfuel
    refine ⟨c, ?_, le_refl c, hc, hle⟩
    rw [growLoop, if_neg (by rw [htest]; omega)]
  | succ fuel ih =>
    by_cases hle : r + n + 1 ≤ c
    · refine ⟨c, ?_, le_refl c, hc, hle⟩
      rw [growLoop, if_neg (by rw [htest]; omega)]
    · have hmul : UInt64.ofNat c * 2 = UInt64.ofNat (c * 2) := (UInt64.ofNat_mul c 2).symm
      have hc2 : c * 2 ≤ 2 ^ 62 := by omega
      obtain ⟨c', he, h₁, h₂, h₃⟩ := ih (c := c * 2) (by omega) hc2
        (by rw [Nat.mul_assoc, ← Nat.pow_succ']; exact hfuel)
        (growTest_iff_of_lt (by omega) (by omega) hc2)
      refine ⟨c', ?_, by omega, h₂, h₃⟩
      rw [growLoop, if_pos (by rw [htest]; omega), hmul, he]

/-- **What growing does**, where the doubling loop stops at a capacity that can be
allocated: the stored bytes are copied to the front of a new vector, the read position
becomes zero, and the write position stays. A vector that is smaller than what is
copied into it comes from an overflow. -/
theorem WellFormed.expandIfNeeded_of_growLoop (h : rb.WellFormed) {len : ℕ} {c : UInt64}
    (hg : rb.writableBytes < len)
    (hc : growLoop 65 (.ofNat rb.capacity) (.ofNat rb.readableBytes) (.ofNat len) = some c)
    (hmax : ¬ vectorMaxSize < c.toNat) :
    ∃ buffer : Bytes, rb.expandIfNeeded len = some (.ok ⟨buffer, 0, rb.writePos⟩)
      ∧ buffer.length = max c.toNat rb.readableBytes
      ∧ buffer.take rb.readableBytes = rb.contents := by
  have hlen := h.length_contents
  set zeros : Bytes := List.replicate c.toNat 0 with hz
  have hzl : zeros.length = c.toNat := List.length_replicate
  have hcopied := h.overwrite_areas zeros
  refine ⟨if rb.empty then zeros
    else Circular.overwrite (Circular.overwrite zeros 0 (rb.bytesAt rb.readableAreas.1))
      (rb.bytesAt rb.readableAreas.1).length (rb.bytesAt rb.readableAreas.2), ?_, ?_, ?_⟩
  · simp only [expandIfNeeded, if_neg (Nat.not_le.mpr hg), hc, Option.map_some, if_neg hmax]
    rfl
  all_goals by_cases he : rb.empty
  · rw [if_pos he, hzl, empty_iff_readableBytes.mp he, Nat.max_zero]
  · rw [if_neg he, hcopied, List.length_append, hlen, List.length_drop, hzl]
    omega
  · rw [empty_iff_readableBytes.mp he, List.take_zero, h.contents_of_empty he]
  · rw [if_neg he, hcopied, List.take_left' hlen]

/-- A well-formed buffer whose capacity is far from the limits of `size_t`. -/
structure Sized (rb : RingBuffer) : Prop extends WellFormed rb where
  capacity_le : rb.capacity ≤ 2 ^ 62

/-- **Where nothing overflows, the new vector is large enough.** -/
theorem Sized.expandIfNeeded_grow (h : rb.Sized) {len : ℕ} (hlen : rb.readableBytes + len < 2 ^ 61)
    (hg : rb.writableBytes < len) :
    ∃ buffer : Bytes, rb.expandIfNeeded len = some (.ok ⟨buffer, 0, rb.writePos⟩)
      ∧ rb.capacity ≤ buffer.length ∧ buffer.length ≤ 2 ^ 62
      ∧ rb.readableBytes + len + 1 ≤ buffer.length
      ∧ buffer.take rb.readableBytes = rb.contents := by
  have hlt := h.readableBytes_lt
  have hcap := h.four_le
  have hfuel : rb.readableBytes + len + 1 ≤ rb.capacity * 2 ^ 64 :=
    le_trans (show _ ≤ 1 * 2 ^ 64 by omega) (Nat.mul_le_mul_right _ (by omega))
  obtain ⟨c, he, h₁, h₂, h₃⟩ := growLoop_eq hlt hlen h.capacity_le hfuel
  have hc : (UInt64.ofNat c).toNat = c := by
    rw [UInt64.toNat_ofNat', Nat.mod_eq_of_lt (by omega)]
  obtain ⟨buffer, hgrow, hbuffer, htake⟩ := h.expandIfNeeded_of_growLoop hg he (by
    rw [hc, vectorMaxSize]
    omega)
  rw [hc] at hbuffer
  exact ⟨buffer, hgrow, by omega, by omega, by omega, htake⟩

/-- After growing from read position zero the buffer holds what it held. -/
theorem Sized.of_grow (h : rb.Sized) (hzero : rb.readPos = 0) {buffer : Bytes}
    (hle : rb.capacity ≤ buffer.length) (hmax : buffer.length ≤ 2 ^ 62)
    (htake : buffer.take rb.readableBytes = rb.contents) :
    (⟨buffer, 0, rb.writePos⟩ : RingBuffer).Sized
      ∧ (⟨buffer, 0, rb.writePos⟩ : RingBuffer).contents = rb.contents := by
  have hr : rb.readableBytes = rb.writePos := by
    unfold readableBytes
    rw [hzero, if_pos (Nat.zero_le _), Nat.sub_zero]
  have hw := h.writePos_lt
  have hcap := h.four_le
  refine ⟨⟨wellFormed_of_front (hcap.trans hle) (by omega), hmax⟩, ?_⟩
  rw [contents_of_front (by omega), ← hr, htake]

/-- **`expandIfNeeded` makes room without touching the contents**, if it has
nothing to do or the read position is zero. -/
theorem Sized.expandIfNeeded_eq (h : rb.Sized) {len : ℕ} (hlen : rb.readableBytes + len < 2 ^ 61)
    (hc : len ≤ rb.writableBytes ∨ rb.readPos = 0) :
    ∃ rb', rb.expandIfNeeded len = some (.ok rb') ∧ rb'.Sized ∧ rb'.contents = rb.contents
      ∧ len ≤ rb'.writableBytes := by
  by_cases hfit : len ≤ rb.writableBytes
  · exact ⟨rb, if_pos hfit, h, rfl, hfit⟩
  · obtain ⟨buffer, he, hle, hmax, hroom, htake⟩ := h.expandIfNeeded_grow hlen (by omega)
    obtain ⟨hs, hcont⟩ := h.of_grow (hc.resolve_left hfit) hle hmax htake
    refine ⟨_, he, hs, hcont, ?_⟩
    have hw := hs.writableBytes_eq
    have hr : (⟨buffer, 0, rb.writePos⟩ : RingBuffer).readableBytes = rb.readableBytes := by
      rw [← hs.length_contents, hcont, h.length_contents]
    have hcap : (⟨buffer, 0, rb.writePos⟩ : RingBuffer).capacity = buffer.length := rfl
    omega

/-! ## Writing and reading -/

/-- The count `write` reports is what there is room for. -/
theorem copyIn_snd (rb : RingBuffer) (data : Bytes) :
    (rb.copyIn data).2 = min data.length rb.writableBytes := by
  simp only [copyIn]
  split
  · exact Eq.symm ‹_›
  · rfl

/-- Bytes written behind the stored ones are appended by moving the write position
behind them, as long as there is room for them. -/
theorem WellFormed.of_written (h : rb.WellFormed) {buffer data : Bytes}
    (hwritten : Circular.Written rb.buffer buffer rb.writePos data)
    (hfit : data.length ≤ rb.writableBytes) :
    (⟨buffer, rb.readPos, (rb.writePos + data.length) % rb.capacity⟩ : RingBuffer).WellFormed
      ∧ (⟨buffer, rb.readPos, (rb.writePos + data.length) % rb.capacity⟩ : RingBuffer).contents
        = rb.contents ++ data := by
  have hr := h.readPos_lt
  have hcap := h.writableBytes_eq
  have hmod := h.add_readableBytes_mod
  have hlen : buffer.length = rb.capacity := hwritten.length_eq
  have hsum : (rb.readPos + (rb.readableBytes + data.length)) % rb.capacity
      = (rb.writePos + data.length) % rb.capacity := by
    rw [← Nat.add_assoc, Nat.add_mod, hmod, Nat.add_mod, Nat.mod_mod, ← Nat.add_mod]
  have hwf : (⟨buffer, rb.readPos, (rb.writePos + data.length) % rb.capacity⟩
      : RingBuffer).WellFormed :=
    ⟨le_of_le_of_eq h.four_le hlen.symm, lt_of_lt_of_eq hr hlen.symm,
      lt_of_lt_of_eq (Nat.mod_lt _ (by omega)) hlen.symm⟩
  have hn := hwf.readableBytes_unique (k := rb.readableBytes + data.length)
    (lt_of_lt_of_eq (by omega) hlen.symm) (by
      show (rb.readPos + _) % buffer.length = _
      rw [hlen, hsum])
  have hstart : Circular.Written rb.buffer buffer (rb.readPos + rb.readableBytes) data := by
    refine ⟨hwritten.length_eq, ?_⟩
    have := hwritten.rotate_eq
    rw [← hmod] at this
    rwa [show rb.capacity = rb.buffer.length from rfl, List.rotate_mod, ← hwritten.length_eq,
      List.rotate_mod] at this
  refine ⟨hwf, ?_⟩
  rw [contents, hn]
  exact Circular.window_of_written hstart (by unfold capacity at hcap; omega)

/-- **`copyIn` writes what fits behind the write position**, and moves that behind
it. -/
theorem WellFormed.copyIn_written (h : rb.WellFormed) {data : Bytes}
    (hfit : data.length ≤ rb.writableBytes) (hz : data.length ≠ 0) :
    ∃ buffer, Circular.Written rb.buffer buffer rb.writePos data
      ∧ rb.copyIn data
        = (⟨buffer, rb.readPos, (rb.writePos + data.length) % rb.capacity⟩, data.length) := by
  have hr := h.readPos_lt
  have hw := h.writePos_lt
  have hcap := h.writableBytes_eq
  unfold copyIn
  rw [Nat.min_eq_left hfit, if_neg hz, List.take_length]
  refine ⟨_, ?_, rfl⟩
  have hback : data.length ≤ rb.backCapacity → rb.writePos + data.length ≤ rb.buffer.length := by
    unfold backCapacity capacity at *
    split <;> omega
  have hwrap : ¬ data.length ≤ rb.backCapacity → rb.writePos + rb.backCapacity = rb.capacity := by
    unfold backCapacity readableBytes at *
    split_ifs at * <;> omega
  split
  · exact Circular.written_overwrite (hback ‹_›)
  · exact Circular.written_overwrite_wrap (by omega) (hwrap ‹_›) (by unfold capacity at hcap; omega)

/-- **What fits is appended to the contents.** -/
theorem Sized.copyIn_eq (h : rb.Sized) {data : Bytes} (hfit : data.length ≤ rb.writableBytes) :
    ∃ rb', rb.copyIn data = (rb', data.length) ∧ rb'.Sized
      ∧ rb'.contents = rb.contents ++ data := by
  by_cases hz : data.length = 0
  · have hnil : data = [] := List.length_eq_zero_iff.mp hz
    refine ⟨rb, ?_, h, by rw [hnil, List.append_nil]⟩
    simp only [copyIn, hz, Nat.zero_min, if_true]
  · obtain ⟨buffer, hwritten, he⟩ := h.copyIn_written hfit hz
    obtain ⟨hwf, hcont⟩ := h.toWellFormed.of_written hwritten hfit
    exact ⟨_, he, ⟨hwf, le_of_eq_of_le hwritten.length_eq h.capacity_le⟩, hcont⟩

/-- **`hasRead` drops what has been read.** -/
theorem Sized.hasRead_eq (h : rb.Sized) {len : ℕ} (hle : len ≤ rb.readableBytes) :
    ∃ rb', rb.hasRead len = .ok rb' ∧ rb'.Sized ∧ rb'.contents = rb.contents.drop len := by
  have hlt := h.readableBytes_lt
  have hcap := h.four_le
  unfold hasRead
  rw [if_neg (Nat.not_lt.mpr hle)]
  have hdrop : rb.contents.drop len
      = Circular.window rb.buffer (rb.readPos + len) (rb.readableBytes - len) :=
    Circular.drop_window hle hlt.le
  have hend : ((rb.readPos + len) % rb.capacity + (rb.readableBytes - len)) % rb.capacity
      = rb.writePos := by
    rw [Nat.mod_add_mod, show rb.readPos + len + (rb.readableBytes - len)
      = rb.readPos + rb.readableBytes by omega, h.add_readableBytes_mod]
  by_cases hr : (rb.readPos + len) % rb.capacity = rb.writePos
  · have hall : rb.readableBytes = len := by
      have := h.readableBytes_unique (lt_of_le_of_lt hle hlt) hr
      omega
    refine ⟨{ rb with readPos := 0, writePos := 0 }, by rw [if_pos hr],
      ⟨⟨hcap, ?_, ?_⟩, h.capacity_le⟩, ?_⟩
    · show 0 < rb.capacity
      omega
    · show 0 < rb.capacity
      omega
    · rw [hdrop, hall, Nat.sub_self]
      rfl
  · have hwf : ({ rb with readPos := (rb.readPos + len) % rb.capacity } : RingBuffer).Sized :=
      ⟨⟨hcap, Nat.mod_lt _ (by omega), h.writePos_lt⟩, h.capacity_le⟩
    refine ⟨_, by rw [if_neg hr], hwf, ?_⟩
    have hn := hwf.readableBytes_unique (k := rb.readableBytes - len)
      (show _ < rb.capacity by omega) hend
    rw [hdrop, contents, hn]
    exact Circular.window_mod rb.buffer (rb.readPos + len) _

/-- **`read` copies the front of the contents out and calls `has_read`**, if there is
something to read. -/
theorem WellFormed.read_eq_hasRead (h : rb.WellFormed) {len : ℕ} (hz : len ≠ 0)
    (he : rb.empty = false) :
    rb.read len = (rb.hasRead (min len rb.readableBytes)).map
      fun rb' => (rb', rb.contents.take len) := by
  have hlt := h.readableBytes_lt
  have hr : rb.readPos < rb.buffer.length := h.readPos_lt
  have hcap : rb.capacity = rb.buffer.length := rfl
  have htake : rb.contents.take len = rb.contents.take (min len rb.readableBytes) := by
    rw [← h.length_contents, List.take_eq_take_min, Nat.min_comm]
  unfold read
  rw [if_neg (by simp [hz, he]), htake]
  set n := min len rb.readableBytes with hn
  have hnr : n ≤ rb.readableBytes := Nat.min_le_right _ _
  rw [contents, Circular.take_window hnr]
  dsimp only
  by_cases hback : n ≤ rb.capacity - rb.readPos
  · rw [if_pos hback, Circular.window_of_le (by omega)]
  · rw [if_neg hback, Circular.window_of_ge hr.le (by omega) (by omega),
      List.take_of_length_le (by rw [List.length_drop]; exact Nat.le_refl _),
      show rb.readPos + n - rb.buffer.length = n - (rb.capacity - rb.readPos) by omega]

/-- **`read` hands out the front of the contents and drops it.** -/
theorem Sized.read_eq (h : rb.Sized) (len : ℕ) :
    ∃ rb', rb.read len = .ok (rb', rb.contents.take len) ∧ rb'.Sized
      ∧ rb'.contents = rb.contents.drop len := by
  have hlen := h.length_contents
  by_cases hz : len = 0
  · exact ⟨rb, by simp [read, hz], h, by rw [hz, List.drop_zero]⟩
  by_cases he : rb.empty = true
  · have hnil := h.contents_of_empty he
    exact ⟨rb, by simp [read, he, hnil], h, by rw [hnil, List.drop_nil]⟩
  obtain ⟨rb', hread, hs, hcont⟩ := h.hasRead_eq (Nat.min_le_right len rb.readableBytes)
  have hdrop : rb.contents.drop len = rb.contents.drop (min len rb.readableBytes) := by
    rw [← hlen, List.drop_eq_drop_min, Nat.min_comm]
  refine ⟨rb', ?_, hs, by rw [hcont, hdrop]⟩
  rw [h.read_eq_hasRead hz (by simpa using he), hread]
  rfl

/-- `readString` is `read` into a region as large as what it gets. -/
theorem Sized.readString_eq (h : rb.Sized) (len : ℕ) :
    ∃ rb', rb.readString len = .ok (rb', rb.contents.take len) ∧ rb'.Sized
      ∧ rb'.contents = rb.contents.drop len := by
  have hlen := h.length_contents
  have hmin : min len rb.readableBytes = min len rb.contents.length := by rw [hlen]
  unfold readString
  by_cases hskip : len = 0 ∨ rb.empty = true
  · rw [if_pos (by simpa using hskip)]
    rcases hskip with hz | he
    · exact ⟨rb, by rw [hz, List.take_zero], h, by rw [hz, List.drop_zero]⟩
    · have hnil := h.contents_of_empty he
      exact ⟨rb, by rw [hnil, List.take_nil], h, by rw [hnil, List.drop_nil]⟩
  · rw [if_neg (by simpa using hskip), hmin]
    obtain ⟨rb', he, hs, hcont⟩ := h.read_eq (min len rb.contents.length)
    exact ⟨rb', by rw [he, ← List.take_eq_take_min], hs, by rw [hcont, ← List.drop_eq_drop_min]⟩

/-! ## The buffer and the queue as machines -/

/-- The calls of the buffer's user. -/
inductive Op
  | write (data : Bytes)
  | read (len : ℕ)
  | readString (len : ℕ)
  | hasRead (len : ℕ)
  | ensureWritable (len : ℕ)
  deriving DecidableEq

/-- What the user sees of a call. -/
inductive Result
  /-- `write` returned this count. -/
  | accepted (n : ℕ)
  /-- `read` or `read_string` delivered these bytes. -/
  | bytes (b : Bytes)
  /-- A call without a result returned. -/
  | done
  /-- The call threw. -/
  | threw (e : StdException)
  /-- The call did not return. -/
  | diverged
  deriving DecidableEq

/-- One call of the buffer; one that does not return normally leaves it as it
was. -/
def call (rb : RingBuffer) : Op → RingBuffer × Result
  | .write data =>
    match rb.write data with
    | none => (rb, .diverged)
    | some (.error e) => (rb, .threw e)
    | some (.ok (rb', n)) => (rb', .accepted n)
  | .read len =>
    match rb.read len with
    | .error e => (rb, .threw e)
    | .ok (rb', b) => (rb', .bytes b)
  | .readString len =>
    match rb.readString len with
    | .error e => (rb, .threw e)
    | .ok (rb', b) => (rb', .bytes b)
  | .hasRead len =>
    match rb.hasRead len with
    | .error e => (rb, .threw e)
    | .ok rb' => (rb', .done)
  | .ensureWritable len =>
    match rb.ensureWritable len with
    | none => (rb, .diverged)
    | some (.error e) => (rb, .threw e)
    | some (.ok rb') => (rb', .done)

/-- The ring buffer, called again and again. -/
def machine : Machine RingBuffer Op Result := ⟨fun rb op => some (rb.call op)⟩

/-- **What the calls mean**: the queue that accepts every byte, delivers the
front of what it holds, and has no notion of room. -/
def queueCall (q : Fifo UInt8) : Op → Fifo UInt8 × Result
  | .write data => (q.push data, .accepted data.length)
  | .read len => (q.pop len, .bytes (q.contents.take len))
  | .readString len => (q.pop len, .bytes (q.contents.take len))
  | .hasRead len => (q.pop len, .done)
  | .ensureWritable _ => (q, .done)

def queueMachine : Machine (Fifo UInt8) Op Result := ⟨fun q op => some (queueCall q op)⟩

/-- The calls a user may make: no more than is there is consumed, and what is
stored and asked for together stays far below the limits of `size_t`. -/
def Admissible (q : Fifo UInt8) : Op → Prop
  | .write data => q.contents.length + data.length < 2 ^ 61
  | .hasRead len => len ≤ q.contents.length
  | .ensureWritable len => q.contents.length + len < 2 ^ 61
  | _ => True

/-- **The calls the buffer gets right**: what is to be written fits, or the read
position is zero when the vector is replaced. -/
def Safe (rb : RingBuffer) : Op → Prop
  | .write data => data.length ≤ rb.writableBytes ∨ rb.readPos = 0
  | .ensureWritable len => len ≤ rb.writableBytes ∨ rb.readPos = 0
  | _ => True

/-- The buffer holds what the queue holds. -/
structure Holds (rb : RingBuffer) (q : Fifo UInt8) : Prop where
  readableBytes_eq : rb.readableBytes = q.contents.length
  contents_eq : rb.contents = q.contents

/-- The relation that is kept along the safe calls. -/
structure Represents (rb : RingBuffer) (q : Fifo UInt8) : Prop where
  sized : rb.Sized
  contents_eq : rb.contents = q.contents

variable {q : Fifo UInt8}

theorem Represents.readableBytes_eq (h : rb.Represents q) :
    rb.readableBytes = q.contents.length := by
  rw [← h.contents_eq, h.sized.length_contents]

theorem Represents.holds (h : rb.Represents q) : rb.Holds q :=
  ⟨h.readableBytes_eq, h.contents_eq⟩

/-- A new buffer represents the empty queue. -/
theorem make_represents {n : ℕ} (hn : 1 ≤ n) (hmax : n ≤ 2 ^ 61) :
    ∃ rb, make n = .ok rb ∧ rb.Represents Fifo.empty := by
  have hcap : (⟨List.replicate (max n 4) 0, 0, 0⟩ : RingBuffer).capacity = max n 4 :=
    List.length_replicate
  refine ⟨_, if_neg (by omega), ⟨⟨?_, ?_, ?_⟩, ?_⟩, ?_⟩
  · rw [hcap]; omega
  · show 0 < RingBuffer.capacity _
    rw [hcap]; omega
  · show 0 < RingBuffer.capacity _
    rw [hcap]; omega
  · rw [hcap]; omega
  · show Circular.window _ 0 0 = _
    rw [Circular.window_zero_length, Fifo.contents_empty]

/-- **One safe call**: the queue gives the same answer, and the buffer
represents the queue again. -/
theorem Represents.call_safe (h : rb.Represents q) {op : Op} (hd : Admissible q op)
    (hc : rb.Safe op) :
    (rb.call op).2 = (queueCall q op).2 ∧ (rb.call op).1.Represents (queueCall q op).1 := by
  have hr := h.readableBytes_eq
  cases op with
  | write data =>
    by_cases hz : data.length = 0
    · have hnil : data = [] := List.length_eq_zero_iff.mp hz
      subst hnil
      exact ⟨rfl, h.sized, by simp [queueCall, call, write, h.contents_eq]⟩
    · obtain ⟨rb₁, he, hs₁, hcont₁, hroom⟩ := h.sized.expandIfNeeded_eq
        (show rb.readableBytes + data.length < 2 ^ 61 by rw [hr]; exact hd) hc
      obtain ⟨rb₂, hcopy, hs₂, hcont₂⟩ := hs₁.copyIn_eq hroom
      have hw : rb.write data = some (.ok (rb₂, data.length)) := by
        rw [write, if_neg hz, he]
        simp [Except.map, hcopy]
      simp only [call, hw, queueCall, true_and]
      exact ⟨hs₂, by rw [hcont₂, hcont₁, h.contents_eq, Fifo.contents_push]⟩
  | read len =>
    obtain ⟨rb', he, hs, hcont⟩ := h.sized.read_eq len
    simp only [call, he, queueCall, h.contents_eq, true_and]
    exact ⟨hs, by rw [hcont, h.contents_eq, Fifo.contents_pop]⟩
  | readString len =>
    obtain ⟨rb', he, hs, hcont⟩ := h.sized.readString_eq len
    simp only [call, he, queueCall, h.contents_eq, true_and]
    exact ⟨hs, by rw [hcont, h.contents_eq, Fifo.contents_pop]⟩
  | hasRead len =>
    have hle : len ≤ rb.readableBytes := by
      rw [hr]
      exact hd
    obtain ⟨rb', he, hs, hcont⟩ := h.sized.hasRead_eq hle
    simp only [call, he, queueCall, true_and]
    exact ⟨hs, by rw [hcont, h.contents_eq, Fifo.contents_pop]⟩
  | ensureWritable len =>
    obtain ⟨rb', he, hs, hcont, -⟩ := h.sized.expandIfNeeded_eq
      (show rb.readableBytes + len < 2 ^ 61 by rw [hr]; exact hd) hc
    simp only [call, ensureWritable, he, queueCall, true_and]
    exact ⟨hs, by rw [hcont, h.contents_eq]⟩

/-- With a positive read position the number of stored bytes is not the write
position. -/
theorem WellFormed.readableBytes_ne (h : rb.WellFormed) (hpos : rb.readPos ≠ 0) :
    rb.readableBytes ≠ rb.writePos := by
  have := h.readPos_lt
  have := h.writePos_lt
  unfold readableBytes
  split_ifs <;> omega

/-- **One unsafe call** – the vector is replaced while the read position is
positive: if the answer is right all the same, the number of stored bytes is
wrong afterwards. -/
theorem Represents.call_unsafe (h : rb.Represents q) {op : Op} (hd : Admissible q op)
    (hc : ¬ rb.Safe op) (hres : (rb.call op).2 = (queueCall q op).2) :
    (rb.call op).1.readableBytes ≠ (queueCall q op).1.contents.length := by
  have hr := h.readableBytes_eq
  cases op with
  | write data =>
    obtain ⟨hfit, hpos⟩ := not_or.mp hc
    have hne := h.sized.readableBytes_ne hpos
    obtain ⟨buffer, he, hle, -, hroom, -⟩ := h.sized.expandIfNeeded_grow
      (show rb.readableBytes + data.length < 2 ^ 61 by rw [hr]; exact hd) (Nat.lt_of_not_le hfit)
    have hw := h.sized.writePos_lt
    set grown : RingBuffer := ⟨buffer, 0, rb.writePos⟩ with hg
    have hz : data.length ≠ 0 := by
      intro h0
      exact hfit (by omega)
    have hwrite : rb.write data = some (.ok (grown.copyIn data)) := by
      rw [write, if_neg hz, he]
      rfl
    simp only [call, hwrite, queueCall, Result.accepted.injEq] at hres ⊢
    have hcap : grown.capacity = buffer.length := rfl
    have hgr : grown.readableBytes = rb.writePos := by
      show (if 0 ≤ rb.writePos then rb.writePos - 0 else _) = _
      rw [if_pos (Nat.zero_le _), Nat.sub_zero]
    have hwf : grown.WellFormed :=
      ⟨by have := h.sized.four_le; omega, by show 0 < buffer.length; omega,
        by show rb.writePos < buffer.length; omega⟩
    have hwr := hwf.writableBytes_eq
    -- the answer is right only if everything was copied, behind the wrong position
    rw [copyIn_snd] at hres
    have hmod : (rb.writePos + data.length) % buffer.length = rb.writePos + data.length :=
      Nat.mod_eq_of_lt (by omega)
    have hout : (grown.copyIn data).1.readableBytes = rb.writePos + data.length := by
      unfold copyIn
      simp only [hres, if_neg hz]
      show (if 0 ≤ (rb.writePos + data.length) % buffer.length
        then (rb.writePos + data.length) % buffer.length - 0 else _) = _
      rw [if_pos (Nat.zero_le _), Nat.sub_zero, hmod]
    rw [hout, Fifo.contents_push, List.length_append, ← hr]
    omega
  | ensureWritable len =>
    obtain ⟨hfit, hpos⟩ := not_or.mp hc
    have hne := h.sized.readableBytes_ne hpos
    obtain ⟨buffer, he, -⟩ := h.sized.expandIfNeeded_grow
      (show rb.readableBytes + len < 2 ^ 61 by rw [hr]; exact hd) (Nat.lt_of_not_le hfit)
    simp only [call, ensureWritable, he, queueCall, ← hr]
    show (if 0 ≤ rb.writePos then rb.writePos - 0 else _) ≠ _
    rw [if_pos (Nat.zero_le _), Nat.sub_zero]
    exact hne.symm
  | read len => exact absurd trivial hc
  | readString len => exact absurd trivial hc
  | hasRead len => exact absurd trivial hc

/-- **The buffer is a FIFO queue in a run exactly when it never replaces its
vector while the read position is positive.** -/
theorem ringBuffer_refines_iff {n : ℕ} (hn : 1 ≤ n) (hmax : n ≤ 2 ^ 61) (ops : List Op)
    (hops : queueMachine.Along Admissible Fifo.empty ops) :
    ∃ rb, make n = .ok rb ∧
      (machine.Refines queueMachine Holds rb Fifo.empty ops ↔ machine.Along Safe rb ops) := by
  obtain ⟨rb, hmake, hrep⟩ := make_represents hn hmax
  refine ⟨rb, hmake, Machine.refines_iff_along (I := Represents) (D := Admissible)
    (fun q op => ⟨_, rfl⟩) (fun _ _ h => h.holds) ?_ ?_ hrep hops⟩
  · rintro rb q op r h hd hc hr
    cases hr
    obtain ⟨hres, hnext⟩ := h.call_safe hd hc
    exact ⟨_, by rw [hres]; rfl, hnext⟩
  · rintro rb q op r q' h hd hc hr hq hholds
    cases hr
    have hq' : queueCall q op = (q', (rb.call op).2) := Option.some.inj hq
    have hbad := h.call_unsafe hd hc (by rw [hq'])
    rw [hq'] at hbad
    exact hbad hholds.readableBytes_eq

/-- Three bytes go in and one comes out; the next write has to grow. -/
def growAfterRead : List Op := [.write [1, 2, 3], .read 1, .write [4, 5]]

theorem growAfterRead_admissible : queueMachine.Along Admissible Fifo.empty growAfterRead := by
  simp [growAfterRead, Machine.Along, queueMachine, queueCall, Admissible]

/-- With four cells `growAfterRead` gets the same three bytes into the new vector
but ends one cell too far: five readable bytes where four are stored. -/
theorem ringBuffer_not_refines_growAfterRead :
    ∃ rb, make 4 = .ok rb ∧ queueMachine.Along Admissible Fifo.empty growAfterRead ∧
      ¬ machine.Refines queueMachine Holds rb Fifo.empty growAfterRead := by
  refine ⟨⟨[0, 0, 0, 0], 0, 0⟩, rfl, growAfterRead_admissible, fun h => ?_⟩
  have hrun : machine.run ⟨[0, 0, 0, 0], 0, 0⟩ growAfterRead
      = some (⟨[2, 3, 0, 4, 5, 0, 0, 0], 0, 5⟩, [.accepted 3, .bytes [1], .accepted 2]) := by
    decide
  obtain ⟨q, hq, hholds⟩ := h.of_run hrun
  have hlen : (queueMachine.run Fifo.empty growAfterRead).map (fun r => r.1.contents.length)
      = some 4 := by decide
  rw [hq] at hlen
  have h5 : (5 : ℕ) = q.contents.length := hholds.readableBytes_eq
  have h4 : q.contents.length = 4 := Option.some.inj hlen
  omega

/-- The equivalence on that run. -/
theorem ringBuffer_refines_iff_growAfterRead :
    ∃ rb, make 4 = .ok rb ∧
      (machine.Refines queueMachine Holds rb Fifo.empty growAfterRead ↔
        machine.Along Safe rb growAfterRead) :=
  ringBuffer_refines_iff (by decide) (by decide) growAfterRead growAfterRead_admissible

end RingBuffer
