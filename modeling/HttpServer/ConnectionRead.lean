import HttpServer.Connection
import HttpServer.Machine

/-!
# What a connection delivers

A connection over a socket object that is connected takes one read event after another. Each
hands the free region of the receive buffer to the socket, commits what was stored there,
and passes a view to the data callback.

The region is always the right one: what has been received stands at the beginning of the
buffer, in order, however often it grew (`received_is_stored`). The view is not.
`GetReceiveBuffer`, which is asked for it, gives the free region again, now the one
*behind* the chunk, and its size is taken to be that of everything that was received since
`read_pos_` is never moved. The callback gets that many bytes from there on: zeros, as long as
they lie inside the buffer. `delivered_iff` says when this is what was received.
-/

/-- A connection, the chunks that it has received, and what the data callback has seen of
each view, `none` for one that does not lie inside the buffer. -/
structure ReadRun where
  conn : TcpConnection
  received : List Bytes := []
  delivered : List (Option Bytes) := []

namespace ReadRun

variable (s : ReadRun)

/-- The chunk of an answer. -/
def chunk : RecvAnswer → Bytes
  | .failed _ => []
  | .received data => data

/-- What a notification hands to the data callback. -/
def seen : Notice → Option (Option Bytes)
  | .data _ contents => some contents
  | _ => none

/-- One read event. A connection that is not connected does not ask the socket. -/
def perform (answer : RecvAnswer) : Option ReadRun :=
  if answer.Fits s.conn.receiveBuffer.getReceiveBuffer.1.size then
    let e := s.conn.onReadEvent answer
    some
      { conn := e.conn
        received :=
          if s.conn.state = .connected then s.received ++ [chunk answer] else s.received
        delivered := s.delivered ++ e.notices.filterMap seen }
  else none

/-- **Each byte is delivered once**: every view lies inside the buffer, and what is read through
the views, one after the other, is what was received. -/
def Faithful : Prop :=
  (∀ view ∈ s.delivered, view ≠ none) ∧ (s.delivered.filterMap id).flatten = s.received.flatten

instance : Decidable s.Faithful := inferInstanceAs (Decidable (_ ∧ _))

/-- A connection that is connected and has received nothing. -/
def start (socketValid : Bool) (sendQueue : SendBufferQueue) : ReadRun where
  conn := { socketValid, state := .connected, sendQueue }

end ReadRun

/-- The machine of the read events. -/
def connectionReader : Machine ReadRun RecvAnswer Unit where
  step s answer := (s.perform answer).map fun t => (t, ())

/-! ## The receive buffer -/

namespace ReceiveBuffer

/-- **A buffer that holds `data`**: it stands at the beginning, and zeros behind it. -/
structure Holds (b : ReceiveBuffer) (data : Bytes) : Prop where
  readPos_eq : b.readPos = 0
  writePos_eq : b.writePos = data.length
  writePos_le : b.writePos ≤ b.size
  size_pos : 0 < b.size
  stored : b.buffer.read 0 b.writePos = data
  zero : ∀ i, b.writePos ≤ i → b.buffer i = 0

variable {b : ReceiveBuffer} {data : Bytes}

theorem holds_nil : ({} : ReceiveBuffer).Holds [] :=
  ⟨rfl, rfl, Nat.zero_le _, by decide, rfl, fun _ _ => rfl⟩

/-- What is read through a view of `total` zeros that begins at `total`, in a buffer of some
size. -/
def zeros (total size : ℕ) : Option Bytes :=
  if total + total ≤ size then some (List.replicate total 0) else none

theorem zeros_eq_some {total size : ℕ} {data : Bytes} :
    zeros total size = some data ↔ total + total ≤ size ∧ List.replicate total 0 = data := by
  rw [zeros]
  split
  · rename_i hinside
    rw [Option.some.injEq, and_iff_right hinside]
  · rename_i houtside
    exact iff_of_false nofun fun h => houtside h.1

namespace Holds

variable (h : b.Holds data)
include h

theorem inBounds : b.InBounds := ⟨h.size_pos, h.writePos_le⟩

/-- A buffer that grows holds what it has held. -/
theorem resize {size : ℕ} (hsize : b.size ≤ size) : (b.resize size).Holds data := by
  obtain ⟨hread, hwrite, hle, hpos, hstored, hzero⟩ := h
  refine ⟨hread, hwrite, Nat.le_trans hle hsize, Nat.lt_of_lt_of_le hpos hsize, ?_, fun i hi => ?_⟩
  · show (b.resize size).buffer.read 0 b.writePos = data
    rw [← hstored]
    apply List.ext_getElem?
    intro i
    rw [Memory.getElem?_read, Memory.getElem?_read]
    split
    · show some (if 0 + i < b.size then b.buffer (0 + i) else 0) = _
      rw [if_pos (by omega)]
    · rfl
  · show (if i < b.size then b.buffer i else 0) = 0
    rw [hzero i hi, ite_self]

/-- `GetReceiveBuffer` may let the buffer grow, and gives the region behind the data. -/
theorem getReceiveBuffer :
    b.getReceiveBuffer.2.Holds data
      ∧ b.getReceiveBuffer.1 = ⟨data.length, b.grownSize - data.length⟩
      ∧ b.getReceiveBuffer.2.size = b.grownSize ∧ data.length < b.grownSize := by
  obtain ⟨hregion, hsize, -, hlt⟩ := h.inBounds.getReceiveBuffer
  rw [h.writePos_eq] at hregion hlt
  refine ⟨?_, hregion, hsize, hlt⟩
  unfold ReceiveBuffer.getReceiveBuffer
  split
  · exact h.resize (by omega)
  · exact h

/-- A chunk that fits into the region stands behind the data once it is committed. -/
theorem commitReceive {chunk : Bytes} (hfits : data.length + chunk.length ≤ b.size) (size : ℕ) :
    ((b.store ⟨data.length, size⟩ chunk).commitReceive chunk.length).Holds (data ++ chunk) := by
  obtain ⟨hread, hwrite, hle, hpos, hstored, hzero⟩ := h
  have hlength : b.writePos + chunk.length = (data ++ chunk).length := by
    rw [hwrite, List.length_append]
  refine ⟨hread, hlength, ?_, hpos, ?_, fun i hi => ?_⟩
  · show b.writePos + chunk.length ≤ b.size
    omega
  · show (b.buffer.write data.length chunk).read 0 (b.writePos + chunk.length) = _
    rw [Memory.read_add, b.buffer.read_write_before (by omega : 0 + b.writePos ≤ data.length),
      hstored, Nat.zero_add, hwrite, Memory.read_write_self]
  · show (b.buffer.write data.length chunk) i = 0
    have hi' : b.writePos + chunk.length ≤ i := hi
    rw [Memory.write, if_pos (by omega), List.getD_eq_default _ _ (by omega)]
    exact hzero i (by omega)

/-- Behind the data there are zeros. -/
theorem read_behind (n : ℕ) : b.buffer.read data.length n = List.replicate n 0 := by
  apply List.ext_getElem?
  intro i
  rw [Memory.getElem?_read, List.getElem?_replicate]
  split
  · rw [h.zero _ (by rw [h.writePos_eq]; omega)]
  · rfl

/-- The view that the data callback gets: as many zeros as there are bytes in all. -/
theorem load_behind {offset : ℕ} (hoffset : offset = data.length) :
    b.load ⟨offset, b.getReceiveBufferSize⟩ = zeros data.length b.size := by
  subst hoffset
  have hsize : b.getReceiveBufferSize = data.length := by
    rw [getReceiveBufferSize, h.readPos_eq, h.writePos_eq, Nat.sub_zero]
  rw [hsize, load, zeros, h.read_behind]
  rfl

end Holds

end ReceiveBuffer

/-! ## A read event -/

namespace ReadRun

/-- **What a read event does** to a connection whose buffer holds what was received. -/
inductive Step (s : ReadRun) (answer : RecvAnswer) (t : ReadRun) : Prop
  /-- The connection is not connected. -/
  | refused (hs : s.conn.state ≠ .connected) (hconn : t.conn = s.conn)
      (hreceived : t.received = s.received) (hdelivered : t.delivered = s.delivered)
  /-- No bytes came, and the connection is as before or has been closed. -/
  | silent (hs : s.conn.state = .connected) (hchunk : chunk answer = [])
      (hholds : t.conn.state = .connected → t.conn.receiveBuffer.Holds s.received.flatten
        ∧ t.conn.receiveBuffer.size = s.conn.receiveBuffer.grownSize)
      (hreceived : t.received = s.received ++ [[]]) (hdelivered : t.delivered = s.delivered)
  /-- A chunk came: it is stored behind the others, and the callback gets what is behind it. -/
  | arrived (hs : s.conn.state = .connected) (hchunk : chunk answer ≠ [])
      (total size : ℕ) (htotal : total = (s.received.flatten ++ chunk answer).length)
      (hfits : total ≤ s.conn.receiveBuffer.grownSize)
      (hsize : size = if total = s.conn.receiveBuffer.grownSize then
        s.conn.receiveBuffer.grownSize * 2 else s.conn.receiveBuffer.grownSize)
      (hholds : t.conn.receiveBuffer.Holds (s.received.flatten ++ chunk answer))
      (hreceived : t.received = s.received ++ [chunk answer])
      (hdelivered : t.delivered = s.delivered ++ [ReceiveBuffer.zeros total size])

theorem grownSize_commitReceive {b : ReceiveBuffer} {data : Bytes} {n : ℕ}
    (h : (b.commitReceive n).Holds data) :
    (b.commitReceive n).grownSize = if data.length = b.size then b.size * 2 else b.size := by
  rw [ReceiveBuffer.grownSize, h.writePos_eq]
  rfl

theorem onReadEvent_step {s : ReadRun} {answer : RecvAnswer} (hs : s.conn.state = .connected)
    (hholds : s.conn.receiveBuffer.Holds s.received.flatten)
    (hfits : answer.Fits s.conn.receiveBuffer.getReceiveBuffer.1.size) :
    Step s answer
      { conn := (s.conn.onReadEvent answer).conn
        received := s.received ++ [chunk answer]
        delivered := s.delivered ++ (s.conn.onReadEvent answer).notices.filterMap seen } := by
  obtain ⟨hgrown, hregion, hsize, hlt⟩ := hholds.getReceiveBuffer
  unfold TcpConnection.onReadEvent
  rw [if_neg fun hn => StateMachine.not_isConnected_iff.mp hn hs]
  rcases hg : s.conn.receiveBuffer.getReceiveBuffer with ⟨region, b⟩
  rw [hg] at hgrown hregion hsize hfits
  obtain rfl : region = ⟨s.received.flatten.length, _⟩ := hregion
  have hsize' : b.size = s.conn.receiveBuffer.grownSize := hsize
  dsimp only
  rw [if_neg (by omega)]
  cases answer with
  | failed err =>
    dsimp only
    by_cases hagain : err = eagain
    · rw [if_pos hagain]
      exact .silent hs rfl (fun _ => ⟨hgrown, hsize⟩) rfl (List.append_nil _)
    · rw [if_neg hagain]
      exact .silent hs rfl nofun rfl (List.append_nil _)
  | received data =>
    dsimp only
    by_cases hempty : data.length = 0
    · rw [if_pos hempty]
      rw [List.length_eq_zero_iff] at hempty
      subst hempty
      exact .silent hs rfl nofun rfl (List.append_nil _)
    · rw [if_neg hempty]
      have hle : data.length ≤ s.conn.receiveBuffer.grownSize - s.received.flatten.length := hfits
      have hcommit := hgrown.commitReceive
        (show s.received.flatten.length + data.length ≤ b.size by omega)
        (s.conn.receiveBuffer.grownSize - s.received.flatten.length)
      -- the second call of `GetReceiveBuffer` is asked for what was received
      obtain ⟨hholds', hview, hsize'', -⟩ := hcommit.getReceiveBuffer
      have hgrow := grownSize_commitReceive hcommit
      rw [show (b.store _ data).size = _ from hsize'] at hgrow
      refine .arrived hs (fun hnil => hempty (List.length_eq_zero_iff.mpr hnil)) _ _ rfl ?_ rfl
        hholds' rfl ?_
      · rw [List.length_append]
        show s.received.flatten.length + data.length ≤ _
        omega
      · have hseen := hholds'.load_behind (congrArg BufferView.offset hview)
        rw [hsize'', hgrow] at hseen
        exact congrArg (fun v => s.delivered ++ [v]) hseen

/-- **Every read event takes one of the steps.** -/
theorem perform_step {s t : ReadRun} {answer : RecvAnswer}
    (hholds : s.conn.state = .connected → s.conn.receiveBuffer.Holds s.received.flatten)
    (h : s.perform answer = some t) : Step s answer t := by
  rw [perform] at h
  split at h
  · rename_i hfits
    by_cases hs : s.conn.state = .connected
    · rw [if_pos hs] at h
      cases h
      exact onReadEvent_step hs (hholds hs) hfits
    · rw [if_neg hs] at h
      cases h
      have he : s.conn.onReadEvent answer = { conn := s.conn } := by
        rw [TcpConnection.onReadEvent, if_pos (StateMachine.not_isConnected_iff.mpr hs)]
      rw [he]
      exact .refused hs rfl rfl (List.append_nil _)
  · cases h

/-! ## When the bytes are delivered -/

/-- What every event finds and leaves: as long as the connection is connected, its buffer holds
what was received, and has its first size while that is nothing. -/
structure Inv (s : ReadRun) : Prop where
  holds : s.conn.state = .connected → s.conn.receiveBuffer.Holds s.received.flatten
  size_eq : s.conn.state = .connected → s.received.flatten = [] →
    s.conn.receiveBuffer.size = 1

theorem inv_start (socketValid : Bool) (sendQueue : SendBufferQueue) :
    (start socketValid sendQueue).Inv :=
  ⟨fun _ => ReceiveBuffer.holds_nil, fun _ _ => rfl⟩

/-- A buffer that holds nothing does not grow. -/
theorem grownSize_of_nil {b : ReceiveBuffer} (h : b.Holds []) : b.grownSize = b.size := by
  have hpos := h.size_pos
  rw [ReceiveBuffer.grownSize, h.writePos_eq, List.length_nil, if_neg (by omega)]

theorem Step.inv {s t : ReadRun} {answer : RecvAnswer} (h : Step s answer t) (hs : s.Inv) :
    t.Inv := by
  cases h with
  | refused hs' hconn hreceived _ =>
    refine ⟨fun ht => ?_, fun ht => ?_⟩
    · exact absurd (hconn ▸ ht) hs'
    · exact absurd (hconn ▸ ht) hs'
  | silent hs' hchunk hholds hreceived _ =>
    have hflatten : t.received.flatten = s.received.flatten := by
      rw [hreceived, List.flatten_append]
      exact List.append_nil _
    refine ⟨fun ht => hflatten ▸ (hholds ht).1, fun ht hnil => ?_⟩
    rw [hflatten] at hnil
    rw [(hholds ht).2, grownSize_of_nil (hnil ▸ hs.holds hs'), hs.size_eq hs' hnil]
  | arrived hs' hchunk total size htotal hfits hsize hholds hreceived _ =>
    have hflatten : t.received.flatten = s.received.flatten ++ chunk answer := by
      rw [hreceived, List.flatten_append]
      exact congrArg _ (List.append_nil _)
    refine ⟨fun _ => hflatten ▸ hholds, fun _ hnil => ?_⟩
    rw [hflatten] at hnil
    exact absurd (List.append_eq_nil_iff.mp hnil).2 hchunk

/-- A chunk that can be delivered as it is: the first one, and a single zero. The region that is
offered first has one byte, and the buffer has two when the view is asked for. -/
def Harmless (s : ReadRun) (answer : RecvAnswer) : Prop :=
  s.conn.state = .connected → chunk answer ≠ [] →
    s.conn.receiveBuffer.writePos = 0 ∧ chunk answer = [0]

/-- What the callback sees is the chunk in just these cases. -/
theorem zeros_eq_some_iff {s : ReadRun} {answer : RecvAnswer} {total size : ℕ} (hs : s.Inv)
    (hconnected : s.conn.state = .connected) (hchunk : chunk answer ≠ [])
    (htotal : total = (s.received.flatten ++ chunk answer).length)
    (hfits : total ≤ s.conn.receiveBuffer.grownSize)
    (hsize : size = if total = s.conn.receiveBuffer.grownSize then
      s.conn.receiveBuffer.grownSize * 2 else s.conn.receiveBuffer.grownSize) :
    ReceiveBuffer.zeros total size = some (chunk answer) ↔ s.Harmless answer := by
  have hholds := hs.holds hconnected
  have hwrite := hholds.writePos_eq
  rw [List.length_append] at htotal
  rw [ReceiveBuffer.zeros_eq_some]
  constructor
  · rintro ⟨-, heq⟩ - -
    have hlength : total = (chunk answer).length := by rw [← heq, List.length_replicate]
    have hnil : s.received.flatten = [] := List.length_eq_zero_iff.mp (by omega)
    have hgrown : s.conn.receiveBuffer.grownSize = 1 := by
      rw [grownSize_of_nil (hnil ▸ hholds), hs.size_eq hconnected hnil]
    have hpos : 0 < (chunk answer).length := List.length_pos_iff.mpr hchunk
    obtain rfl : total = 1 := by omega
    exact ⟨by omega, heq.symm⟩
  · intro hharmless
    obtain ⟨hzero, heq⟩ := hharmless hconnected hchunk
    have hnil : s.received.flatten = [] := List.length_eq_zero_iff.mp (by omega)
    have hgrown : s.conn.receiveBuffer.grownSize = 1 := by
      rw [grownSize_of_nil (hnil ▸ hholds), hs.size_eq hconnected hnil]
    rw [hnil, heq] at htotal
    obtain rfl : total = 1 := htotal
    rw [if_pos hgrown.symm, hgrown] at hsize
    exact ⟨by omega, heq.symm⟩

/-- One more chunk and one more view. -/
theorem faithful_append_iff {s t : ReadRun} (hs : s.Faithful) {data : Bytes} {view : Option Bytes}
    (hreceived : t.received = s.received ++ [data])
    (hdelivered : t.delivered = s.delivered ++ [view]) :
    t.Faithful ↔ view = some data := by
  obtain ⟨hinside, hflatten⟩ := hs
  unfold Faithful
  rw [hreceived, hdelivered, List.filterMap_append, List.flatten_append, List.flatten_append,
    hflatten, List.append_cancel_left_eq]
  constructor
  · rintro ⟨hall, heq⟩
    cases view with
    | none => exact absurd rfl (hall none (List.mem_append_right _ List.mem_cons_self))
    | some seen => exact congrArg some (by simpa using heq)
  · rintro rfl
    refine ⟨fun view hmem => ?_, rfl⟩
    rcases List.mem_append.mp hmem with hold | hnew
    · exact hinside view hold
    · rw [List.mem_singleton.mp hnew]
      exact nofun

/-- One event more. -/
theorem Step.faithful_iff {s t : ReadRun} {answer : RecvAnswer} (h : Step s answer t) (hs : s.Inv)
    (hfaithful : s.Faithful) : t.Faithful ↔ s.Harmless answer := by
  cases h with
  | refused hs' hconn hreceived hdelivered =>
    refine iff_of_true ?_ fun hconnected => absurd hconnected hs'
    rwa [Faithful, hreceived, hdelivered]
  | silent hs' hchunk _ hreceived hdelivered =>
    refine iff_of_true ?_ fun _ hne => absurd hchunk hne
    refine ⟨hdelivered ▸ hfaithful.1, ?_⟩
    rw [hdelivered, hreceived, List.flatten_append, hfaithful.2]
    exact (List.append_nil _).symm
  | arrived hs' hchunk total size htotal hfits hsize _ hreceived hdelivered =>
    rw [faithful_append_iff hfaithful hreceived hdelivered]
    exact zeros_eq_some_iff hs hs' hchunk htotal hfits hsize

end ReadRun

theorem connectionReader_step {s : ReadRun} {answer : RecvAnswer} {r : ReadRun × Unit} :
    connectionReader.step s answer = some r ↔ s.perform answer = some r.1 := by
  show (s.perform answer).map _ = some r ↔ _
  rw [Option.map_eq_some_iff]
  exact ⟨fun ⟨t, ht, he⟩ => he ▸ ht, fun h => ⟨r.1, h, rfl⟩⟩

/-- **Nothing is lost on the way into the buffer**: as long as the connection is connected,
everything that it has received stands at its beginning, however often it grew. -/
theorem received_is_stored (socketValid : Bool) (sendQueue : SendBufferQueue)
    (answers : List RecvAnswer) :
    connectionReader.Always
      (fun s => s.conn.state = .connected →
        s.conn.receiveBuffer.buffer.read 0 s.conn.receiveBuffer.writePos = s.received.flatten)
      (ReadRun.start socketValid sendQueue) answers :=
  Machine.always_of_step (I := ReadRun.Inv) (fun _ hs hconnected => (hs.holds hconnected).stored)
    (fun _ _ _ hs hr => (ReadRun.perform_step hs.holds (connectionReader_step.mp hr)).inv hs)
    (ReadRun.inv_start socketValid sendQueue)

/-- **Each byte is delivered once, and every view lies inside the buffer, exactly if** at most one
chunk comes and it is a single zero. -/
theorem delivered_iff (socketValid : Bool) (sendQueue : SendBufferQueue)
    (answers : List RecvAnswer) :
    connectionReader.Always ReadRun.Faithful (ReadRun.start socketValid sendQueue) answers
      ↔ connectionReader.Along ReadRun.Harmless (ReadRun.start socketValid sendQueue) answers := by
  refine Machine.always_iff_along (I := fun s : ReadRun => s.Inv ∧ s.Faithful) (fun s hs => hs.2)
    ?_ ?_ ⟨ReadRun.inv_start socketValid sendQueue, nofun, rfl⟩
  · intro s a r hs hc hr
    have hstep := ReadRun.perform_step hs.1.holds (connectionReader_step.mp hr)
    exact ⟨hstep.inv hs.1, (hstep.faithful_iff hs.1 hs.2).mpr hc⟩
  · intro s a r hs hc hr hP
    have hstep := ReadRun.perform_step hs.1.holds (connectionReader_step.mp hr)
    exact hc ((hstep.faithful_iff hs.1 hs.2).mp hP)

/-- One byte is received, and the callback gets the zero behind it. -/
theorem not_delivered :
    ¬ connectionReader.Always ReadRun.Faithful (ReadRun.start true {}) [.received [97]] := by
  decide
