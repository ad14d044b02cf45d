import HttpServer.Cpp
import HttpServer.Memory

/-!
# Buffer edits

`DefaultBufferOperator` of `core/Buffer/buffer_operator.cpp` works on a `Buffer`: a block of
memory, of which the first `size()` bytes are valid. Appending, prepending and copying are
meant as edits of the list of valid bytes.

`Append` and `Prepend` are (`append_exact`, `prepend_exact`). `Copy` adds the offset and the
length in `size_t`, so that it accepts an offset near `2 ^ 64`; and it accepts one behind the
valid bytes, and makes what lies between valid although nothing has been written there.
`editsExact_iff` says that these are the two exceptions.

A cell of a block is `none` until it has been written, so that uninitialised memory can be told
from data.
-/

namespace BufferOperator

/-- What a byte of memory holds; `none` is that it has not been written. -/
abbrev Cell := Option UInt8

/-- `Buffer`, with the cells of its block. -/
structure Buffer where
  memory : Memory Cell
  size : UInt64
  capacity : UInt64
  size_le : size ≤ capacity

/-- `BufferView`: the cells it points to, and their number. -/
structure BufferView where
  data : List Cell
  size : UInt64
  length_eq : data.length = size.toNat

namespace Buffer

/-- The constructor, for a new block. -/
def make (memory : Memory Cell) (capacity : UInt64) : Buffer where
  memory := memory
  size := 0
  capacity := capacity
  size_le := UInt64.zero_le

/-- The buffer with another number of valid bytes. -/
def resized (b : Buffer) (newSize : UInt64) (h : newSize ≤ b.capacity) : Buffer :=
  { b with size := newSize, size_le := h }

/-- `resize`. -/
def resize (b : Buffer) (newSize : UInt64) : Except StdException Buffer :=
  if h : b.capacity < newSize then .error .outOfRange
  else .ok (b.resized newSize (UInt64.not_lt.mp h))

/-- **The valid bytes.** -/
def valid (b : Buffer) : List Cell := b.memory.read 0 b.size.toNat

/-- Cells of the block, from an offset on, become those of `data`. -/
def store (b : Buffer) (offset : ℕ) (data : List Cell) : Buffer :=
  { b with memory := b.memory.write offset data }

/-- The view of the valid bytes. -/
def view (b : Buffer) : BufferView :=
  ⟨b.valid, b.size, Memory.length_read b.memory 0 b.size.toNat⟩

end Buffer

/-! ## The source -/

/-- `Append`. -/
def append (dest : Buffer) (src : BufferView) : Except StdException (Buffer × Bool) :=
  if src.size = 0 then .ok (dest, true)
  else if dest.capacity - dest.size < src.size then .ok (dest, false)
  else
    ((dest.store dest.size.toNat src.data).resize (dest.size + src.size)).map fun b => (b, true)

/-- `Prepend`: `memmove`, and `memcpy` to the begin. -/
def prepend (dest : Buffer) (src : BufferView) : Except StdException (Buffer × Bool) :=
  if src.size = 0 then .ok (dest, true)
  else if dest.capacity - dest.size < src.size then .ok (dest, false)
  else
    let dest := dest.store src.size.toNat (dest.memory.read 0 dest.size.toNat)
    let dest := dest.store 0 src.data
    (dest.resize (dest.size + src.size)).map fun b => (b, true)

/-- `Copy`. Where the sum has wrapped around, `memcpy` stores outside of the block. -/
def copy (dest : Buffer) (src : BufferView) (destOffset : UInt64) :
    Except StdException (Buffer × Bool) :=
  if src.size = 0 then .ok (dest, true)
  else if dest.capacity < destOffset + src.size then .ok (dest, false)
  else
    let dest := dest.store destOffset.toNat src.data
    if dest.size < destOffset + src.size then
      (dest.resize (destOffset + src.size)).map fun b => (b, true)
    else .ok (dest, true)

/-! ## What the edits are to do -/

/-- `Append` and `Prepend`: the call succeeds if there is room, and the valid bytes are the
edited ones; if there is none, it fails and nothing has changed. -/
def Edits (op : Buffer → BufferView → Except StdException (Buffer × Bool))
    (edit : List Cell → List Cell → List Cell) (dest : Buffer) (src : BufferView) : Prop :=
  if dest.valid.length + src.data.length ≤ dest.capacity.toNat then
    ∃ b, op dest src = .ok (b, true) ∧ b.valid = edit dest.valid src.data
  else op dest src = .ok (dest, false)

/-- `Copy`: the call succeeds only if the bytes fit behind the offset. Then they stand there, the
other valid bytes are the old ones, and no other cell has become valid. If it fails nothing has
changed. -/
def CopyExact (dest : Buffer) (src : BufferView) (destOffset : UInt64) : Prop :=
  copy dest src destOffset = .ok (dest, false) ∨
    ∃ b, copy dest src destOffset = .ok (b, true) ∧
      destOffset.toNat + src.data.length ≤ dest.capacity.toNat ∧
      (b.valid.drop destOffset.toNat).take src.data.length = src.data ∧
      (∀ i < dest.valid.length, i < destOffset.toNat ∨ destOffset.toNat + src.data.length ≤ i →
        b.valid[i]? = dest.valid[i]?) ∧
      ∀ i < b.valid.length, i < dest.valid.length ∨
        destOffset.toNat ≤ i ∧ i < destOffset.toNat + src.data.length

/-- **Buffer edits mean list edits.** -/
structure EditsExact (dest : Buffer) (src : BufferView) (destOffset : UInt64) : Prop where
  append : Edits append (fun b v => b ++ v) dest src
  prepend : Edits prepend (fun b v => v ++ b) dest src
  copy : CopyExact dest src destOffset

/-! ## Sizes -/

section

variable {dest : Buffer} {src : BufferView}

theorem length_valid (b : Buffer) : b.valid.length = b.size.toNat :=
  Memory.length_read b.memory 0 b.size.toNat

theorem size_le_capacity (b : Buffer) : b.size.toNat ≤ b.capacity.toNat :=
  UInt64.le_iff_toNat_le.mp b.size_le

/-- The test of `Append` and `Prepend`. -/
theorem room_iff : dest.capacity - dest.size < src.size ↔
    ¬ dest.valid.length + src.data.length ≤ dest.capacity.toNat := by
  have := size_le_capacity dest
  rw [UInt64.lt_iff_toNat_lt, UInt64.toNat_sub_of_le _ _ dest.size_le, length_valid, src.length_eq]
  omega

/-- A sum of sizes that does not wrap around. -/
theorem toNat_add_of_lt {a b : UInt64} (h : a.toNat + b.toNat < 2 ^ 64) :
    (a + b).toNat = a.toNat + b.toNat := by
  rw [UInt64.toNat_add, Nat.mod_eq_of_lt h]

/-- `resize` within the capacity. -/
theorem resize_of_le {b : Buffer} {newSize : UInt64} (h : newSize ≤ b.capacity) :
    b.resize newSize = .ok (b.resized newSize h) :=
  dif_neg (UInt64.not_lt.mpr h)

/-- The sizes of a buffer and of what has room in it. -/
theorem toNat_add_of_room (h : dest.valid.length + src.data.length ≤ dest.capacity.toNat) :
    (dest.size + src.size).toNat = dest.size.toNat + src.data.length
      ∧ dest.size + src.size ≤ dest.capacity := by
  have hc := dest.capacity.toNat_lt
  rw [length_valid] at h
  rw [src.length_eq] at h ⊢
  have hadd : (dest.size + src.size).toNat = dest.size.toNat + src.size.toNat :=
    toNat_add_of_lt (by omega)
  exact ⟨hadd, UInt64.le_iff_toNat_le.mpr (by omega)⟩

/-! ## Appending and prepending -/

/-- **Appending to the buffer appends to the valid bytes.** -/
theorem append_exact (hne : src.size ≠ 0) : Edits append (fun b v => b ++ v) dest src := by
  by_cases hroom : dest.valid.length + src.data.length ≤ dest.capacity.toNat
  · obtain ⟨hadd, hle⟩ := toNat_add_of_room hroom
    have hle' : dest.size + src.size ≤ (dest.store dest.size.toNat src.data).capacity := hle
    rw [Edits, if_pos hroom, append, if_neg hne, if_neg (fun h => room_iff.mp h hroom),
      resize_of_le hle']
    refine ⟨_, rfl, ?_⟩
    show (dest.memory.write dest.size.toNat src.data).read 0 (dest.size + src.size).toNat = _
    rw [hadd, Memory.read_add, Memory.read_write_before _ (by omega), Nat.zero_add,
      Memory.read_write_self]
    rfl
  · rw [Edits, if_neg hroom, append, if_neg hne, if_pos (room_iff.mpr hroom)]

/-- **Prepending to the buffer prepends to the valid bytes.** -/
theorem prepend_exact (hne : src.size ≠ 0) : Edits prepend (fun b v => v ++ b) dest src := by
  by_cases hroom : dest.valid.length + src.data.length ≤ dest.capacity.toNat
  · obtain ⟨hadd, hle⟩ := toNat_add_of_room hroom
    have hle' : dest.size + src.size ≤
        ((dest.store src.size.toNat dest.valid).store 0 src.data).capacity := hle
    rw [Edits, if_pos hroom, prepend, if_neg hne, if_neg (fun h => room_iff.mp h hroom)]
    refine ⟨_, congrArg (Except.map fun b => (b, true)) (resize_of_le hle'), ?_⟩
    show ((dest.memory.write src.size.toNat dest.valid).write 0 src.data).read 0
      (dest.size + src.size).toNat = _
    have hmoved : (dest.memory.write src.size.toNat dest.valid).read src.size.toNat dest.size.toNat
        = dest.valid := by
      rw [← length_valid, Memory.read_write_self]
    rw [hadd, Nat.add_comm, Memory.read_add, Memory.read_write_self, Nat.zero_add,
      Memory.read_write_behind _ (by omega), src.length_eq, hmoved]
  · rw [Edits, if_neg hroom, prepend, if_neg hne, if_pos (room_iff.mpr hroom)]

/-! ## Copying -/

/-- **What a copy leaves that is not refused**: the bytes at the offset, and as many valid bytes
as before, or up to the end of the copy. -/
theorem copy_of_le (hne : src.size ≠ 0) {destOffset : UInt64}
    (hle : destOffset + src.size ≤ dest.capacity) :
    ∃ b, copy dest src destOffset = .ok (b, true)
      ∧ b.memory = dest.memory.write destOffset.toNat src.data
      ∧ b.size.toNat = max dest.size.toNat (destOffset + src.size).toNat := by
  unfold copy
  rw [if_neg hne, if_neg (UInt64.not_lt.mpr hle)]
  dsimp only
  split
  · rename_i hlt
    have hlt' : dest.size.toNat < (destOffset + src.size).toNat := UInt64.lt_iff_toNat_lt.mp hlt
    have hle' : destOffset + src.size ≤ (dest.store destOffset.toNat src.data).capacity := hle
    rw [resize_of_le hle']
    exact ⟨_, rfl, rfl, (Nat.max_eq_right (Nat.le_of_lt hlt')).symm⟩
  · rename_i hnot
    have hnot' := UInt64.le_iff_toNat_le.mp (UInt64.not_lt.mp hnot)
    exact ⟨_, rfl, rfl, (Nat.max_eq_left hnot').symm⟩

/-- **A copy is an edit of the valid bytes** exactly if it is refused, or begins within them and
its end does not wrap around. -/
theorem copyExact_iff (hne : src.size ≠ 0) {destOffset : UInt64} :
    CopyExact dest src destOffset ↔ dest.capacity < destOffset + src.size ∨
      destOffset.toNat + src.data.length < 2 ^ 64 ∧ destOffset ≤ dest.size := by
  have hcap := dest.capacity.toNat_lt
  by_cases hrefused : dest.capacity < destOffset + src.size
  · refine ⟨fun _ => .inl hrefused, fun _ => .inl ?_⟩
    rw [copy, if_neg hne, if_pos hrefused]
  obtain ⟨b, hcopy, hmem, hsize⟩ := copy_of_le hne (UInt64.not_lt.mp hrefused)
  have hlen := length_valid b
  have hlen' := length_valid dest
  rw [UInt64.toNat_add, ← src.length_eq] at hsize
  constructor
  · rintro (hno | ⟨b', hb', hfits, -, -, hnew⟩)
    · rw [hcopy] at hno
      cases hno
    · obtain rfl : b = b' := by
        rw [hcopy] at hb'
        cases hb'
        rfl
      refine .inr ⟨by omega, UInt64.le_iff_toNat_le.mpr ?_⟩
      -- the first cell behind the valid bytes
      rw [Nat.mod_eq_of_lt (by omega)] at hsize
      refine Nat.le_of_not_lt fun hgap => ?_
      have := hnew dest.size.toNat (by omega)
      omega
  · rintro (h | ⟨hwrap, hoff⟩)
    · exact absurd h hrefused
    · have hoff := UInt64.le_iff_toNat_le.mp hoff
      have hle := UInt64.le_iff_toNat_le.mp (UInt64.not_lt.mp hrefused)
      rw [UInt64.toNat_add, ← src.length_eq, Nat.mod_eq_of_lt hwrap] at hle
      rw [Nat.mod_eq_of_lt hwrap] at hsize
      refine .inr ⟨b, hcopy, hle, ?_, fun i hi hout => ?_, fun i hi => by omega⟩
      · obtain ⟨rest, hrest⟩ := Nat.exists_eq_add_of_le
          (show destOffset.toNat + src.data.length ≤ b.size.toNat by omega)
        rw [Buffer.valid, hmem, hrest, Nat.add_assoc, Memory.read_add,
          List.drop_left' (Memory.length_read _ _ _), Nat.zero_add, Memory.read_add,
          Memory.read_write_self, List.take_left' rfl]
      · rw [Buffer.valid, Buffer.valid, hmem, Memory.getElem?_read, Memory.getElem?_read,
          if_pos (by omega), if_pos (by omega), Nat.zero_add, Memory.write_outside _ hout]

/-- **Buffer edits mean list edits**, but for copies that leave a gap behind the valid bytes, or
whose end wraps around. -/
theorem editsExact_iff (hne : src.size ≠ 0) {destOffset : UInt64} :
    EditsExact dest src destOffset ↔ dest.capacity < destOffset + src.size ∨
      destOffset.toNat + src.data.length < 2 ^ 64 ∧ destOffset ≤ dest.size :=
  ⟨fun h => (copyExact_iff hne).mp h.copy,
    fun h => ⟨append_exact hne, prepend_exact hne, (copyExact_iff hne).mpr h⟩⟩

end

/-- A new buffer of ten bytes. -/
def tenCells : Buffer := .make (fun _ => none) 10

def oneByte : BufferView := ⟨[some 7], 1, rfl⟩

def twoBytes : BufferView := ⟨[some 7, some 8], 2, rfl⟩

/-- A byte copied to offset 5 makes the five bytes in front of it valid, which nobody has written;
and two bytes are accepted at offset `2 ^ 64 - 1`. -/
theorem tenCells_not_editsExact :
    ¬ EditsExact tenCells oneByte 5 ∧ ¬ EditsExact tenCells twoBytes (.ofNat (2 ^ 64 - 1)) ∧
      ∃ b, copy tenCells oneByte 5 = .ok (b, true) ∧
        b.valid = [none, none, none, none, none, some 7] := by
  refine ⟨fun h => ?_, fun h => ?_, ⟨_, rfl, rfl⟩⟩
  · exact absurd ((copyExact_iff (by decide)).mp h.copy) (by decide)
  · exact absurd ((copyExact_iff (by decide)).mp h.copy) (by decide)

/-- The equivalence for the first copy. -/
theorem editsExact_iff_tenCells :
    EditsExact tenCells oneByte 5 ↔ tenCells.capacity < 5 + oneByte.size ∨
      (5 : UInt64).toNat + oneByte.data.length < 2 ^ 64 ∧ (5 : UInt64) ≤ tenCells.size :=
  editsExact_iff (by decide)

end BufferOperator
