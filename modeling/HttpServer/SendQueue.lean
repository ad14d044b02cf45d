import HttpServer.Fifo
import HttpServer.TcpReceive
import Mathlib.Data.UInt
import Mathlib.Logic.Equiv.Basic

/-!
# The send queue as a bounded FIFO

What a `ConnectionBufferManager` is for, as far as sending goes: a queue of bytes that takes
in a piece of data whole or not at all, and gives its bytes out in order. `QueueSpec` says so
for any number of queues and the calls of the class, with the two freedoms that the class
has: a failing allocation may turn data away, and the view that is shown is some non-empty
part of the front.

The class keeps a deque of buffers and a position in the first of them. The states it can be
in are `WellFormed`: as long as they are, the subtraction in `GetSendQueueSize` does not wrap
around, and a `ConsumeSend` may go over as many buffers as it likes
(`sendQueues_refine_fifo`).
-/

/-! ## The calls -/

/-- The calls of a family of managers that are about sending. `alloc` is the outcome of the
allocation in `CloneBuffer`. -/
inductive SendQueueCall (ι : Type*)
  | enqueueSend (i : ι) (data : Bytes) (alloc : Bool)
  | peekSend (i : ι)
  | consumeSend (i : ι) (bytes : ℕ)
  | getSendQueueSize (i : ι)
  | isSendQueueEmpty (i : ι)
  | setMaxSendQueueSize (i : ι) (size : UInt64)
  | clearAll (i : ι)
  | swap (i j : ι)

/-- What the calls return. -/
inductive SendQueueReply
  | done
  | bool (b : Bool)
  | view (data : Bytes)
  | size (n : UInt64)

/-! ## The specification -/

/-- **Queues that are bounded FIFOs**, as their callers see them. Data are taken in whole,
exactly if there is room and memory for them; consuming removes from the front; what is shown
is a part of the front, and not the empty one if there is another. -/
inductive QueueSpec {ι : Type*} [DecidableEq ι] (t : ι → BoundedFifo UInt8) :
    SendQueueCall ι → SendQueueReply → (ι → BoundedFifo UInt8) → Prop
  | enqueueNothing (i : ι) (alloc : Bool) :
    QueueSpec t (.enqueueSend i [] alloc) (.bool true) t
  | enqueue (i : ι) (data : Bytes) (hdata : data ≠ []) (hfits : (t i).Fits data) :
    QueueSpec t (.enqueueSend i data true) (.bool true) (Function.update t i ((t i).push data))
  | reject (i : ι) (data : Bytes) (alloc : Bool) (hdata : data ≠ [])
    (hno : ¬ (t i).Fits data ∨ alloc = false) :
    QueueSpec t (.enqueueSend i data alloc) (.bool false) t
  | peek (i : ι) (view : Bytes) (hview : view <+: (t i).contents)
    (hsome : (t i).contents ≠ [] → view ≠ []) :
    QueueSpec t (.peekSend i) (.view view) t
  | consume (i : ι) (bytes : ℕ) :
    QueueSpec t (.consumeSend i bytes) .done (Function.update t i ((t i).pop bytes))
  | size (i : ι) (n : UInt64) (hn : n.toNat = (t i).contents.length) :
    QueueSpec t (.getSendQueueSize i) (.size n) t
  | empty (i : ι) (b : Bool) (hb : b = true ↔ (t i).contents.length = 0) :
    QueueSpec t (.isSendQueueEmpty i) (.bool b) t
  | setMax (i : ι) (size : UInt64) :
    QueueSpec t (.setMaxSendQueueSize i size) .done
      (Function.update t i { t i with limit := size.toNat })
  | clear (i : ι) :
    QueueSpec t (.clearAll i) .done (Function.update t i (t i).clear)
  | swap (i j : ι) :
    QueueSpec t (.swap i j) .done fun k => t (Equiv.swap i j k)

/-! ## The source -/

namespace ConnectionBufferManager

/-- `GetSendQueueSize` as it is computed, in `size_t`. -/
def sendQueueTotal (b : ConnectionBufferManager) : UInt64 :=
  match b.sendQueue with
  | [] => 0
  | front :: rest =>
    rest.foldl (fun total buf => total + .ofNat buf.length)
      (0 + (.ofNat front.length - .ofNat b.sendConsumed))

/-- `SetMaxSendQueueSize`. -/
def setMaxSendQueueSize (b : ConnectionBufferManager) (size : UInt64) :
    ConnectionBufferManager :=
  { b with maxSendQueueSize := size }

end ConnectionBufferManager

/-- One call. `Swap` exchanges all there is of two managers. -/
def SendQueueCall.perform {ι : Type*} [DecidableEq ι] (s : ι → ConnectionBufferManager) :
    SendQueueCall ι → (ι → ConnectionBufferManager) × SendQueueReply
  | .enqueueSend i data alloc =>
    let r := (s i).enqueueSend data alloc
    (Function.update s i r.1, .bool r.2)
  | .peekSend i => (s, .view (s i).peekSend)
  | .consumeSend i bytes => (Function.update s i ((s i).consumeSend bytes), .done)
  | .getSendQueueSize i => (s, .size (s i).sendQueueTotal)
  | .isSendQueueEmpty i => (s, .bool (s i).isSendQueueEmpty)
  | .setMaxSendQueueSize i size =>
    (Function.update s i ((s i).setMaxSendQueueSize size), .done)
  | .clearAll i => (Function.update s i (s i).clear, .done)
  | .swap i j => (fun k => s (Equiv.swap i j k), .done)

/-- The managers that are called. -/
def sendQueues (ι : Type*) [DecidableEq ι] :
    Machine (ι → ConnectionBufferManager) (SendQueueCall ι) SendQueueReply :=
  ⟨fun s call => some (call.perform s)⟩

/-! ## What a manager stands for -/

/-- **A manager represents a queue**: it is in one of its states, what is pending are the
contents, which `size_t` can count, and the limits agree. -/
structure ConnectionBufferManager.Represents (b : ConnectionBufferManager)
    (q : BoundedFifo UInt8) : Prop where
  wellFormed : b.WellFormed
  pending_eq : b.pending = q.contents
  limit_eq : b.maxSendQueueSize.toNat = q.limit
  length_lt : q.contents.length < 2 ^ 64

/-- The totals stay below what `size_t` can count. -/
def InRange {ι : Type*} (s : ι → ConnectionBufferManager) : SendQueueCall ι → Prop
  | .enqueueSend i data _ => (s i).pending.length + data.length < 2 ^ 64
  | _ => True

namespace ConnectionBufferManager

theorem foldl_ofNat (queue : List Bytes) (n : ℕ) :
    queue.foldl (fun total buf => total + UInt64.ofNat buf.length) (.ofNat n)
      = .ofNat (n + queue.flatten.length) := by
  induction queue generalizing n with
  | nil => rfl
  | cons buf rest ih =>
    rw [List.foldl_cons, ← UInt64.ofNat_add, ih, List.flatten_cons, List.length_append,
      Nat.add_assoc]

/-- **The size does not wrap around.** -/
theorem WellFormed.sendQueueTotal_eq {b : ConnectionBufferManager} (h : b.WellFormed) :
    b.sendQueueTotal = .ofNat b.pending.length := by
  unfold sendQueueTotal pending unsent
  cases hq : b.sendQueue with
  | nil => rfl
  | cons front rest =>
    have hle : b.sendConsumed ≤ front.length :=
      Nat.le_of_lt (h.consumed_lt front (by rw [hq]; rfl))
    show rest.foldl _ _ = _
    rw [UInt64.zero_add, ← UInt64.ofNat_sub hle, foldl_ofNat, unsentFrom, List.flatten_cons,
      List.length_append, List.length_drop]

end ConnectionBufferManager

namespace ConnectionBufferManager.Represents

variable {b : ConnectionBufferManager} {q : BoundedFifo UInt8} (h : b.Represents q)
include h

/-- The limit check of `EnqueueSend` is the one of the queue. -/
theorem accepts_iff {data : Bytes} (hdata : data ≠ [])
    (hrange : b.pending.length + data.length < 2 ^ 64) (alloc : Bool) :
    b.Accepts data alloc ↔ q.Fits data ∧ alloc = true := by
  have hle : UInt64.ofNat b.pending.length + .ofNat data.length ≤ b.maxSendQueueSize
      ↔ q.Fits data := by
    rw [← UInt64.ofNat_add, UInt64.le_iff_toNat_le, UInt64.toNat_ofNat_of_lt' hrange, h.limit_eq,
      h.pending_eq]
    exact Iff.rfl
  rw [Accepts, or_iff_right hdata, hle]

/-- Data that fit are appended, whole. -/
theorem enqueueSend_fits {data : Bytes} (hdata : data ≠ [])
    (hrange : b.pending.length + data.length < 2 ^ 64) (hfits : q.Fits data) :
    (b.enqueueSend data true).2 = true ∧ (b.enqueueSend data true).1.Represents (q.push data) := by
  obtain ⟨hwf, hunsent, hmax, hres⟩ := h.wellFormed.enqueueSend_eq data true
  have haccepts : b.Accepts data true := (h.accepts_iff hdata hrange true).mpr ⟨hfits, rfl⟩
  have hpending : (b.enqueueSend data true).1.pending = b.pending ++ data := by
    rw [pending, hunsent, List.flatten_append, enqueued, if_pos ⟨hdata, haccepts⟩,
      List.flatten_singleton, pending]
  refine ⟨hres.mpr haccepts, hwf, ?_, ?_, ?_⟩
  · rw [hpending, h.pending_eq, BoundedFifo.contents_push]
  · rw [hmax, h.limit_eq]
    rfl
  · rw [BoundedFifo.contents_push, List.length_append, ← h.pending_eq]
    exact hrange

/-- Data that do not fit, or find no memory, change nothing. -/
theorem enqueueSend_rejected {data : Bytes} (hdata : data ≠ [])
    (hrange : b.pending.length + data.length < 2 ^ 64) {alloc : Bool}
    (hno : ¬ q.Fits data ∨ alloc = false) :
    (b.enqueueSend data alloc).2 = false ∧ (b.enqueueSend data alloc).1.Represents q := by
  obtain ⟨hwf, hunsent, hmax, hres⟩ := h.wellFormed.enqueueSend_eq data alloc
  have hrejects : ¬ b.Accepts data alloc := by
    rw [h.accepts_iff hdata hrange]
    rintro ⟨hfits, rfl⟩
    exact hno.elim (fun hn => hn hfits) Bool.noConfusion
  have hpending : (b.enqueueSend data alloc).1.pending = b.pending := by
    rw [pending, hunsent, enqueued, if_neg fun hc => hrejects hc.2, List.append_nil, pending]
  refine ⟨Bool.eq_false_iff.mpr fun ht => hrejects (hres.mp ht), hwf, ?_, ?_, h.length_lt⟩
  · rw [hpending, h.pending_eq]
  · rw [hmax, h.limit_eq]

theorem consumeSend (n : ℕ) : (b.consumeSend n).Represents (q.pop n) := by
  obtain ⟨hwf, hpending⟩ := h.wellFormed.consumeSend_eq n
  refine ⟨hwf, ?_, h.limit_eq, ?_⟩
  · rw [hpending, h.pending_eq, BoundedFifo.contents_pop]
  · rw [BoundedFifo.contents_pop, List.length_drop]
    exact Nat.lt_of_le_of_lt (Nat.sub_le _ _) h.length_lt

theorem clear : b.clear.Represents q.clear :=
  ⟨⟨nofun, nofun, fun _ => rfl⟩, rfl, h.limit_eq, by
    rw [BoundedFifo.contents_clear]
    exact Nat.two_pow_pos 64⟩

theorem setMaxSendQueueSize (size : UInt64) :
    (b.setMaxSendQueueSize size).Represents { q with limit := size.toNat } :=
  ⟨⟨h.wellFormed.ne_nil, h.wellFormed.consumed_lt, h.wellFormed.consumed_eq⟩, h.pending_eq, rfl,
    h.length_lt⟩

/-- What is shown is the unsent part of the first buffer. -/
theorem peekSend : b.peekSend <+: q.contents ∧ (q.contents ≠ [] → b.peekSend ≠ []) := by
  rw [← h.pending_eq, pending]
  cases hu : b.unsent with
  | nil =>
    have hq : b.sendQueue = [] := unsent_eq_nil_iff.mp hu
    rw [ConnectionBufferManager.peekSend, hq]
    exact ⟨List.nil_prefix, fun hne => absurd rfl hne⟩
  | cons chunk rest =>
    rw [h.wellFormed.peekSend_eq hu, List.flatten_cons]
    refine ⟨List.prefix_append _ _, fun _ => h.wellFormed.unsent_ne_nil chunk ?_⟩
    rw [hu]
    exact List.mem_cons_self

theorem sendQueueTotal : b.sendQueueTotal.toNat = q.contents.length := by
  have hlt := h.length_lt
  rw [← h.pending_eq] at hlt ⊢
  rw [h.wellFormed.sendQueueTotal_eq, UInt64.toNat_ofNat_of_lt' hlt]

theorem isSendQueueEmpty : b.isSendQueueEmpty = true ↔ q.contents.length = 0 := by
  rw [h.wellFormed.isSendQueueEmpty_iff, ← h.pending_eq, List.length_eq_zero_iff,
    h.wellFormed.pending_eq_nil_iff]

end ConnectionBufferManager.Represents

/-! ## Runs -/

/-- Calls of one manager leave the others what they were. -/
theorem represents_update {ι : Type*} [DecidableEq ι] {s : ι → ConnectionBufferManager}
    {t : ι → BoundedFifo UInt8} (h : ∀ k, (s k).Represents (t k)) {i : ι}
    {b : ConnectionBufferManager} {q : BoundedFifo UInt8} (hi : b.Represents q) (k : ι) :
    (Function.update s i b k).Represents (Function.update t i q k) := by
  by_cases hk : k = i
  · subst hk
    rw [Function.update_self, Function.update_self]
    exact hi
  · rw [Function.update_of_ne hk, Function.update_of_ne hk]
    exact h k

/-- **The send side is a bounded FIFO.** Whatever calls are made of any number of new
managers, with any data and counts, any limits and any outcomes of the allocations, as long
as the totals can be counted: every result is one that queues with a limit could have given,
and what is pending in each manager is at every point what is in its queue. -/
theorem sendQueues_refine_fifo {ι : Type*} [DecidableEq ι] (calls : List (SendQueueCall ι))
    (hrange : (sendQueues ι).Along InRange (fun _ => {}) calls) :
    (sendQueues ι).Simulates QueueSpec (fun s t => ∀ i, (s i).Represents (t i))
      (fun _ => {}) (fun _ => ⟨.empty, 1024 * 1024⟩) calls := by
  refine Machine.simulates_of_along ?_ (fun _ => ⟨⟨nofun, nofun, fun _ => rfl⟩, rfl, rfl,
    Nat.two_pow_pos 64⟩) hrange
  rintro s t call r h hrange hr
  cases hr
  cases call with
  | enqueueSend i data alloc =>
    by_cases hdata : data = []
    · subst hdata
      refine ⟨t, .enqueueNothing i alloc, ?_⟩
      show ∀ k, (Function.update s i (s i) k).Represents (t k)
      rw [Function.update_eq_self]
      exact h
    by_cases hyes : (t i).Fits data ∧ alloc = true
    · obtain ⟨hfits, rfl⟩ := hyes
      obtain ⟨hres, hnext⟩ := (h i).enqueueSend_fits hdata hrange hfits
      refine ⟨_, ?_, represents_update h hnext⟩
      show QueueSpec t _ (.bool ((s i).enqueueSend data true).2) _
      rw [hres]
      exact .enqueue i data hdata hfits
    · have hno : ¬ (t i).Fits data ∨ alloc = false := by
        rwa [← Bool.not_eq_true, ← not_and_or]
      obtain ⟨hres, hnext⟩ := (h i).enqueueSend_rejected hdata hrange hno
      have hupdate := represents_update h (i := i) hnext
      rw [Function.update_eq_self] at hupdate
      refine ⟨t, ?_, hupdate⟩
      show QueueSpec t _ (.bool ((s i).enqueueSend data alloc).2) t
      rw [hres]
      exact .reject i data alloc hdata hno
  | peekSend i => exact ⟨t, .peek i _ (h i).peekSend.1 (h i).peekSend.2, h⟩
  | consumeSend i bytes =>
    exact ⟨_, .consume i bytes, represents_update h ((h i).consumeSend bytes)⟩
  | getSendQueueSize i => exact ⟨t, .size i _ (h i).sendQueueTotal, h⟩
  | isSendQueueEmpty i => exact ⟨t, .empty i _ (h i).isSendQueueEmpty, h⟩
  | setMaxSendQueueSize i size =>
    exact ⟨_, .setMax i size, represents_update h ((h i).setMaxSendQueueSize size)⟩
  | clearAll i => exact ⟨_, .clear i, represents_update h (h i).clear⟩
  | swap i j => exact ⟨_, .swap i j, fun k => h (Equiv.swap i j k)⟩

/-- Two managers that are exchanged between a partial send and the rest of it. -/
theorem sendQueues_refine_fifo_swap :
    (sendQueues Bool).Simulates QueueSpec (fun s t => ∀ i, (s i).Represents (t i))
      (fun _ => {}) (fun _ => ⟨.empty, 1024 * 1024⟩)
      [.enqueueSend true [1, 2] true, .enqueueSend true [3] true, .consumeSend true 1,
        .swap true false, .peekSend false, .consumeSend false 9, .getSendQueueSize false] :=
  sendQueues_refine_fifo _ (by
    simp [Machine.Along, sendQueues, SendQueueCall.perform, InRange,
      ConnectionBufferManager.enqueueSend, ConnectionBufferManager.pending,
      ConnectionBufferManager.unsent, ConnectionBufferManager.unsentFrom])
