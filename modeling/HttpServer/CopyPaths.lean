import HttpServer.ZeroCopy

/-!
# The copying and the zero-copy paths

`read` and `write` copy bytes out of `RingBuffer` and into it; with the areas a
caller does the same in place and reports it with `has_read` or `has_written`. The
two ways compute where the bytes are split at the end of the vector differently,
`read` and `write` from the capacity behind a position, the areas from the order of
the positions.

They agree, and `write` also where the writable areas are one byte too long, since
no more is copied there than `write` accepts. The one state in which `read` and
`has_read` differ is an empty buffer whose positions are not zero: `read` returns
at once, and `has_read(0)` puts both positions to zero. No call leads there
(`WellFormed.settled_call`).
-/

namespace RingBuffer

/-- What the readable areas point to, one after the other. -/
def areaBytes (rb : RingBuffer) : Bytes :=
  rb.bytesAt rb.readableAreas.1 ++ rb.bytesAt rb.readableAreas.2

/-- `data` copied into the first and then the second of the writable areas. -/
def fillAreas (rb : RingBuffer) (data : Bytes) : RingBuffer :=
  (rb.fill rb.writableAreas.1 (data.take rb.writableAreas.1.len)).fill rb.writableAreas.2
    (data.drop rb.writableAreas.1.len)

/-- `read` gives the front of the readable areas, and leaves what `has_read` of as
many bytes leaves. -/
def ReadsAlike (rb : RingBuffer) (len : ℕ) : Prop :=
  ∃ rb', rb.hasRead (min len rb.readableBytes) = .ok rb' ∧
    rb.read len = .ok (rb', rb.areaBytes.take (min len rb.readableBytes))

/-- `write` leaves what `has_written` leaves behind a copy into the writable
areas. -/
def WritesAlike (rb : RingBuffer) (data : Bytes) : Prop :=
  ∃ rb', (rb.fillAreas data).hasWritten data.length = .ok rb' ∧
    rb.write data = some (.ok (rb', data.length))

/-- Equal positions are zero: the buffer has been reset when it became empty. -/
def Settled (rb : RingBuffer) : Prop := rb.readPos = rb.writePos → rb.readPos = 0

variable {rb : RingBuffer}

/-! ## Reading -/

theorem WellFormed.empty_iff (h : rb.WellFormed) :
    rb.empty = true ↔ rb.readPos = rb.writePos := by
  have hr := h.readPos_lt
  have hw := h.writePos_lt
  simp only [empty, beq_iff_eq]
  unfold readableBytes
  split_ifs <;> omega

/-- `has_read` accepts what is there. -/
theorem hasRead_of_le {len : ℕ} (hle : len ≤ rb.readableBytes) :
    ∃ rb', rb.hasRead len = .ok rb' := by
  rw [hasRead, if_neg (Nat.not_lt.mpr hle)]
  dsimp only
  split
  · exact ⟨_, rfl⟩
  · exact ⟨_, rfl⟩

/-- `has_read` of nothing changes nothing, unless it is to reset the positions. -/
theorem WellFormed.hasRead_zero (h : rb.WellFormed) :
    rb.hasRead 0 = .ok (if rb.readPos = rb.writePos then { rb with readPos := 0, writePos := 0 }
      else rb) := by
  have hmod : (rb.readPos + 0) % rb.capacity = rb.readPos := Nat.mod_eq_of_lt h.readPos_lt
  rw [hasRead, if_neg (Nat.not_lt_zero _)]
  simp only [hmod]
  split <;> rfl

theorem WellFormed.areaBytes_eq (h : rb.WellFormed) : rb.areaBytes = rb.contents :=
  h.bytesAt_readableAreas

/-- An empty buffer gives nothing and is left as it is. -/
theorem read_of_empty (he : rb.empty = true) (len : ℕ) : rb.read len = .ok (rb, []) := by
  simp [read, he]

/-- **Reading and `has_read` agree in a settled state.** -/
theorem WellFormed.readsAlike (h : rb.WellFormed) (hs : rb.Settled) (len : ℕ) :
    rb.ReadsAlike len := by
  have htake : rb.areaBytes.take (min len rb.readableBytes) = rb.contents.take len := by
    rw [h.areaBytes_eq, ← h.length_contents, ← List.take_eq_take_min]
  by_cases hskip : len = 0 ∨ rb.empty = true
  · have hmin : min len rb.readableBytes = 0 := by
      rcases hskip with hz | he
      · rw [hz, Nat.zero_min]
      · rw [empty_iff_readableBytes.mp he, Nat.min_zero]
    have hread : rb.read len = .ok (rb, []) := by
      simp only [read, Bool.or_eq_true, decide_eq_true_eq, if_pos hskip]
    refine ⟨rb, ?_, by rw [hread, hmin, List.take_zero]⟩
    rw [hmin, h.hasRead_zero]
    split
    · rename_i heq
      have hr0 : 0 = rb.readPos := (hs heq).symm
      have hw0 : 0 = rb.writePos := hr0.trans heq
      exact congrArg Except.ok (congrArg₂ (RingBuffer.mk rb.buffer) hr0 hw0)
    · rfl
  · obtain ⟨hz, he⟩ := not_or.mp hskip
    obtain ⟨rb', hrb'⟩ := hasRead_of_le (Nat.min_le_right len rb.readableBytes)
    refine ⟨rb', hrb', ?_⟩
    rw [h.read_eq_hasRead hz (by simpa using he), hrb', htake]
    rfl

/-- **And only there**: `has_read(0)` moves the positions of an empty buffer that has
not been reset. -/
theorem WellFormed.settled_of_readsAlike (h : rb.WellFormed) {len : ℕ}
    (hread : rb.ReadsAlike len) : rb.Settled := by
  intro heq
  have he := h.empty_iff.mpr heq
  have hmin : min len rb.readableBytes = 0 := by
    rw [empty_iff_readableBytes.mp he, Nat.min_zero]
  obtain ⟨rb', hhas, hrd⟩ := hread
  rw [read_of_empty he, Except.ok.injEq, Prod.mk.injEq] at hrd
  rw [hmin, h.hasRead_zero, if_pos heq, Except.ok.injEq, ← hrd.1] at hhas
  rw [← hhas]

/-! ## Writing -/

/-- The areas are filled the way `write` copies. -/
theorem WellFormed.fillAreas_eq (h : rb.WellFormed) {data : Bytes}
    (hfit : data.length ≤ rb.writableBytes) :
    rb.fillAreas data =
      ⟨if data.length ≤ rb.backCapacity then Circular.overwrite rb.buffer rb.writePos data
        else Circular.overwrite (Circular.overwrite rb.buffer rb.writePos
          (data.take rb.backCapacity)) 0 (data.drop rb.backCapacity),
        rb.readPos, rb.writePos⟩ := by
  have hcap := h.writableBytes_eq
  have hr := h.readPos_lt
  have hw := h.writePos_lt
  by_cases hgap : 0 < rb.readPos ∧ rb.readPos ≤ rb.writePos
  · have hback : rb.backCapacity = rb.capacity - rb.writePos := by
      rw [backCapacity, if_neg (by omega)]
    have hf : ¬ rb.full = true := by
      have hn : rb.readableBytes = rb.writePos - rb.readPos := if_pos hgap.2
      simp only [full, beq_iff_eq]
      omega
    have hareas : rb.writableAreas
        = (⟨some rb.writePos, rb.backCapacity⟩, ⟨some 0, rb.readPos⟩) := by
      rw [writableAreas, if_neg hf, if_neg (by omega), if_pos hgap.1, if_neg (by omega), hback]
    simp only [fillAreas, hareas, fill]
    split
    · rename_i hle
      rw [List.take_of_length_le hle, List.drop_of_length_le hle, Circular.overwrite_nil]
    · rfl
  · have hle : data.length ≤ rb.backCapacity := by
      unfold backCapacity readableBytes at *
      split_ifs at * <;> omega
    rw [if_pos hle]
    obtain ⟨hz, he⟩ | ⟨he, -⟩ := h.writableAreas_eq hgap
    · obtain rfl : data = [] := List.length_eq_zero_iff.mp (by omega)
      simp only [fillAreas, he, fill, Circular.overwrite_nil]
    · simp only [fillAreas, he, fill, List.take_of_length_le hfit]

/-- **Writing and `has_written` agree.** -/
theorem WellFormed.writesAlike (h : rb.WellFormed) {data : Bytes}
    (hfit : data.length ≤ rb.writableBytes) : rb.WritesAlike data := by
  by_cases hz : data.length = 0
  · obtain rfl : data = [] := List.length_eq_zero_iff.mp hz
    have hfill : rb.fillAreas [] = rb := by
      rw [h.fillAreas_eq hfit]
      simp
    refine ⟨rb, ?_, rfl⟩
    rw [hfill, List.length_nil, hasWritten, if_neg (Nat.not_lt_zero _), Nat.add_zero,
      Nat.mod_eq_of_lt h.writePos_lt]
  · obtain ⟨buffer, hwritten, hcopy⟩ := h.copyIn_written hfit hz
    have hfill : rb.fillAreas data = ⟨buffer, rb.readPos, rb.writePos⟩ := by
      rw [h.fillAreas_eq hfit]
      have hb : (rb.copyIn data).1.buffer = buffer := by rw [hcopy]
      rw [← hb]
      simp only [copyIn, Nat.min_eq_left hfit, if_neg hz, List.take_length]
    refine ⟨⟨buffer, rb.readPos, (rb.writePos + data.length) % rb.capacity⟩, ?_, ?_⟩
    · rw [hfill]
      exact hasWritten_of_written hwritten hfit
    · rw [write, if_neg hz, expandIfNeeded, if_pos hfit]
      simp only [Option.map_some, Except.map, hcopy]

/-! ## The states that have not been reset -/

/-- What is written, or reported with `has_written`, does not make the positions
equal. -/
theorem WellFormed.settled_of_add (h : rb.WellFormed) (hs : rb.Settled) {buffer : Bytes} {len : ℕ}
    (hfit : len ≤ rb.writableBytes) :
    (⟨buffer, rb.readPos, (rb.writePos + len) % rb.capacity⟩ : RingBuffer).Settled := by
  intro heq
  replace heq : rb.readPos = (rb.writePos + len) % rb.capacity := heq
  have hcap := h.writableBytes_eq
  have hr := h.readPos_lt
  have hw := h.writePos_lt
  refine hs ?_
  rw [Circular.mod_eq_ite (by omega)] at heq
  unfold readableBytes at hcap
  split_ifs at heq hcap <;> omega

theorem settled_of_hasRead {rb' : RingBuffer} {len : ℕ} (he : rb.hasRead len = .ok rb') :
    rb'.Settled := by
  unfold hasRead at he
  split at he
  · cases he
  · dsimp only at he
    split at he
    · cases he
      exact fun _ => rfl
    · rename_i hne
      cases he
      exact fun heq => absurd heq hne

theorem settled_of_read (hs : rb.Settled) {rb' : RingBuffer} {len : ℕ} {bytes : Bytes}
    (he : rb.read len = .ok (rb', bytes)) : rb'.Settled := by
  unfold read at he
  split at he
  · cases he
    exact hs
  · dsimp only at he
    cases hread : rb.hasRead (min len rb.readableBytes) with
    | error e =>
      rw [hread] at he
      cases he
    | ok rb₁ =>
      rw [hread] at he
      cases he
      exact settled_of_hasRead hread

/-- A vector that is replaced is read from its first cell. -/
theorem readPos_of_expandIfNeeded {rb' : RingBuffer} {len : ℕ} (hlen : rb.writableBytes < len)
    (he : rb.expandIfNeeded len = some (.ok rb')) : rb'.readPos = 0 := by
  rw [expandIfNeeded, if_neg (Nat.not_le.mpr hlen)] at he
  obtain ⟨c, -, hc⟩ := Option.map_eq_some_iff.mp he
  split at hc
  · cases hc
  · cases hc
    rfl

theorem copyIn_readPos (rb : RingBuffer) (data : Bytes) :
    (rb.copyIn data).1.readPos = rb.readPos := by
  simp only [copyIn]
  split <;> rfl

theorem settled_of_expandIfNeeded (hs : rb.Settled) {rb' : RingBuffer} {len : ℕ}
    (he : rb.expandIfNeeded len = some (.ok rb')) : rb'.Settled := by
  by_cases hfit : len ≤ rb.writableBytes
  · rw [expandIfNeeded, if_pos hfit] at he
    cases he
    exact hs
  · exact fun _ => readPos_of_expandIfNeeded (Nat.lt_of_not_le hfit) he

theorem WellFormed.settled_of_write (h : rb.WellFormed) (hs : rb.Settled) {rb' : RingBuffer}
    {data : Bytes} {n : ℕ} (he : rb.write data = some (.ok (rb', n))) : rb'.Settled := by
  unfold write at he
  split at he
  · cases he
    exact hs
  · rename_i hz
    obtain ⟨r, hr, hcopy⟩ := Option.map_eq_some_iff.mp he
    cases r with
    | error e => cases hcopy
    | ok rb₁ =>
      have hcopied : rb₁.copyIn data = (rb', n) := Except.ok.inj hcopy
      have hrb' : rb' = (rb₁.copyIn data).1 := by rw [hcopied]
      by_cases hfit : data.length ≤ rb.writableBytes
      · rw [expandIfNeeded, if_pos hfit] at hr
        cases hr
        obtain ⟨buffer, -, hdone⟩ := h.copyIn_written hfit hz
        rw [hrb', hdone]
        exact h.settled_of_add hs hfit
      · refine fun _ => ?_
        rw [hrb', copyIn_readPos]
        exact readPos_of_expandIfNeeded (Nat.lt_of_not_le hfit) hr

/-- **No call leads to a state that has not been reset.** -/
theorem WellFormed.settled_call (h : rb.WellFormed) (hs : rb.Settled) (op : Op) :
    (rb.call op).1.Settled := by
  cases op with
  | write data =>
    simp only [call]
    split
    · exact hs
    · exact hs
    · exact h.settled_of_write hs ‹_›
  | read len =>
    simp only [call]
    split
    · exact hs
    · exact settled_of_read hs ‹_›
  | readString len =>
    simp only [call, readString]
    split_ifs
    · exact hs
    · split
      · exact hs
      · exact settled_of_read hs ‹_›
  | hasRead len =>
    simp only [call]
    split
    · exact hs
    · exact settled_of_hasRead ‹_›
  | ensureWritable len =>
    simp only [call, ensureWritable]
    split
    · exact hs
    · exact hs
    · exact settled_of_expandIfNeeded hs ‹_›

/-! ## The agreement -/

/-- **The copying and the zero-copy paths agree**, but for a buffer that is empty and
has not been reset: there `read` leaves the positions where they are. -/
theorem WellFormed.paths_agree (h : rb.WellFormed) :
    (∀ len, rb.ReadsAlike len ↔ rb.Settled) ∧
      (¬ rb.Settled → rb.areaBytes = [] ∧ (∀ len, rb.read len = .ok (rb, [])) ∧
        rb.hasRead 0 = .ok { rb with readPos := 0, writePos := 0 }) ∧
      ∀ data : Bytes, data.length ≤ rb.writableBytes → rb.WritesAlike data := by
  refine ⟨fun len => ⟨h.settled_of_readsAlike, fun hs => h.readsAlike hs len⟩, fun hs => ?_,
    fun _ hfit => h.writesAlike hfit⟩
  have heq : rb.readPos = rb.writePos := by
    by_contra hne
    exact hs fun heq => absurd heq hne
  have he := h.empty_iff.mpr heq
  refine ⟨?_, read_of_empty he, by rw [h.hasRead_zero, if_pos heq]⟩
  simp [areaBytes, readableAreas, he, bytesAt]

/-- Four free cells and both positions in the middle. -/
def notReset : RingBuffer := ⟨[0, 0, 0, 0], 2, 2⟩

theorem notReset_wellFormed : notReset.WellFormed := ⟨by decide, by decide, by decide⟩

/-- `read` of a byte leaves the positions there; `has_read` of the zero bytes it
read puts them to zero. -/
theorem notReset_paths_differ : notReset.WellFormed ∧ ¬ notReset.ReadsAlike 1 ∧
    notReset.read 1 = .ok (notReset, []) ∧ notReset.hasRead 0 = .ok ⟨[0, 0, 0, 0], 0, 0⟩ :=
  ⟨notReset_wellFormed,
    fun h => absurd (notReset_wellFormed.settled_of_readsAlike h rfl) (by decide), rfl, rfl⟩

/-- The agreement where a byte is stored in the second cell and the writable areas
are one byte too long. -/
theorem paths_agree_oneByte :
    (∀ len, oneByte.ReadsAlike len ↔ oneByte.Settled) ∧
      (¬ oneByte.Settled → oneByte.areaBytes = [] ∧ (∀ len, oneByte.read len = .ok (oneByte, [])) ∧
        oneByte.hasRead 0 = .ok { oneByte with readPos := 0, writePos := 0 }) ∧
      ∀ data : Bytes, data.length ≤ oneByte.writableBytes → oneByte.WritesAlike data :=
  oneByte_wellFormed.paths_agree

end RingBuffer
