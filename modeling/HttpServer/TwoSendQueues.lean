import HttpServer.Connection
import HttpServer.TcpReceive
import Mathlib.Algebra.GroupWithZero.Nat

/-!
# The two send queues

The repository has two send queues: `SendBufferQueue`, with an offset in each chunk and a running
total, and the send side of `ConnectionBufferManager`, with one offset for the front and a total
that is counted anew. Given the same calls they hold the same bytes, as long as no `ConsumeSend`
goes beyond the first chunk: there the manager takes the rest from the next buffers, and
`SendBufferQueue` leaves it at one chunk. `interchangeable_iff` says that this is the only
difference.
-/

/-- The calls that change a send queue. -/
inductive SendCall
  | enqueueSend (data : Bytes)
  | consumeSend (bytes : ℕ)
  | clearAll

/-- The two queues. The limit of the manager is the largest `size_t`, and its allocations
succeed. -/
structure TwoSendQueues where
  queue : SendBufferQueue := {}
  manager : ConnectionBufferManager := { maxSendQueueSize := .ofNat (2 ^ 64 - 1) }

namespace TwoSendQueues

/-- The call, on both of them. -/
def perform (s : TwoSendQueues) : SendCall → TwoSendQueues
  | .enqueueSend data => ⟨(s.queue.enqueueSend data).1, (s.manager.enqueueSend data true).1⟩
  | .consumeSend bytes => ⟨s.queue.consumeSend bytes, s.manager.consumeSend bytes⟩
  | .clearAll => ⟨s.queue.clearAll, s.manager.clear⟩

def machine : Machine TwoSendQueues SendCall Unit := ⟨fun s call => some (s.perform call, ())⟩

/-- **They cannot be told apart**: both hold the same bytes and show the same. -/
structure Alike (s : TwoSendQueues) : Prop where
  pending_eq : s.queue.pending = s.manager.pending
  peekSend_eq : s.queue.peekSend = s.manager.peekSend
  size_eq : s.queue.getSendQueueSize = s.manager.getSendQueueSize
  isEmpty_eq : s.queue.isSendQueueEmpty = s.manager.isSendQueueEmpty

/-- `total_bytes_` is what the chunks have left. -/
def CountsRight (s : TwoSendQueues) : Prop :=
  s.queue.totalBytes = (s.queue.chunks.map fun chunk => chunk.data.length - chunk.offset).sum

/-- A `ConsumeSend` asks for no more than the first chunk has left, or there is no other chunk. -/
def WithinFront (s : TwoSendQueues) : SendCall → Prop
  | .consumeSend bytes => bytes ≤ s.queue.peekSend.length ∨ s.queue.chunks.length ≤ 1
  | _ => True

instance (s : TwoSendQueues) : ∀ call, Decidable (s.WithinFront call)
  | .consumeSend _ => inferInstanceAs (Decidable (_ ∨ _))
  | .enqueueSend _ => inferInstanceAs (Decidable True)
  | .clearAll => inferInstanceAs (Decidable True)

/-- **The relation that is kept**: the same chunks, with the same parts left of them. -/
structure SameChunks (s : TwoSendQueues) : Prop where
  queue_wf : s.queue.WellFormed
  manager_wf : s.manager.WellFormed
  chunks_eq : s.queue.chunks.map Chunk.rest = s.manager.unsent
  unlimited : s.manager.maxSendQueueSize = .ofNat (2 ^ 64 - 1)

end TwoSendQueues

namespace SendBufferQueue

variable {q : SendBufferQueue}

/-- Within the first chunk, that one gets shorter. -/
theorem consumeSend_of_lt {chunk : Bytes} {rest : List Bytes}
    (hu : q.chunks.map Chunk.rest = chunk :: rest) {n : ℕ} (hn : n < chunk.length) :
    (q.consumeSend n).chunks.map Chunk.rest = chunk.drop n :: rest := by
  obtain ⟨front, tl, hq, rfl, rfl⟩ := List.map_eq_cons_iff.mp hu
  rw [Chunk.rest, List.length_drop] at hn
  unfold SendBufferQueue.consumeSend
  rw [hq]
  dsimp only
  by_cases hz : n = 0
  · rw [if_pos hz, hq, hz, List.drop_zero]
    rfl
  · rw [if_neg hz, Nat.min_eq_left (Nat.le_of_lt hn), if_neg (by omega), List.map_cons,
      Chunk.rest, Chunk.rest, List.drop_drop]

namespace WellFormed

variable (h : q.WellFormed)
include h

/-- A call that asks for more than the first chunk has left gets what it has left. -/
theorem consumeSend_min (n : ℕ) :
    q.consumeSend n = q.consumeSend (min n q.peekSend.length) := by
  unfold SendBufferQueue.consumeSend SendBufferQueue.peekSend
  cases hq : q.chunks with
  | nil => rfl
  | cons front rest =>
    have hlt := h.offset_lt front (by rw [hq]; exact List.mem_cons_self)
    dsimp only
    rw [List.length_drop]
    by_cases hz : n = 0
    · rw [if_pos hz, if_pos (by omega)]
    · have hmin : min n (front.data.length - front.offset) ≠ 0 := by omega
      rw [if_neg hz, if_neg hmin, Nat.min_assoc, Nat.min_self]

/-- **`ConsumeSend` keeps to its invariant**, whatever it is asked for. -/
theorem consumeSend_wellFormed (n : ℕ) : (q.consumeSend n).WellFormed := by
  rw [h.consumeSend_min]
  exact (h.consumeSend (Nat.min_le_right _ _)).1

/-- **Beyond the first chunk, only that one goes.** -/
theorem consumeSend_of_le {chunk : Bytes} {rest : List Bytes}
    (hu : q.chunks.map Chunk.rest = chunk :: rest) {n : ℕ} (hn : chunk.length ≤ n) :
    (q.consumeSend n).chunks.map Chunk.rest = rest := by
  obtain ⟨front, tl, hq, rfl, rfl⟩ := List.map_eq_cons_iff.mp hu
  have hlt := h.offset_lt front (by rw [hq]; exact List.mem_cons_self)
  rw [Chunk.rest, List.length_drop] at hn
  unfold SendBufferQueue.consumeSend
  rw [hq]
  dsimp only
  rw [if_neg (by omega), Nat.min_eq_right hn, if_pos (by omega)]

end WellFormed

end SendBufferQueue

namespace TwoSendQueues

variable {s : TwoSendQueues}

/-- What the chunks have left, counted. -/
theorem sum_rest (chunks : List Chunk) :
    (chunks.map fun chunk => chunk.data.length - chunk.offset).sum
      = (chunks.map Chunk.rest).flatten.length := by
  rw [List.length_flatten, List.map_map]
  congr 1
  exact List.map_congr_left fun chunk _ => List.length_drop.symm

namespace SameChunks

variable (h : s.SameChunks)
include h

theorem pending_eq : s.queue.pending = s.manager.pending := by
  rw [SendBufferQueue.pending, h.chunks_eq, ConnectionBufferManager.pending]

/-- **The same chunks look the same.** -/
theorem alike : s.Alike := by
  refine ⟨h.pending_eq, ?_, ?_, ?_⟩
  · cases hq : s.queue.chunks with
    | nil =>
      have hu := h.chunks_eq
      rw [hq, List.map_nil, eq_comm, ConnectionBufferManager.unsent_eq_nil_iff] at hu
      rw [SendBufferQueue.peekSend, ConnectionBufferManager.peekSend, hq, hu]
    | cons front rest =>
      have hu := h.chunks_eq
      rw [hq, List.map_cons] at hu
      rw [h.manager_wf.peekSend_eq hu.symm, SendBufferQueue.peekSend, hq]
      rfl
  · rw [h.queue_wf.getSendQueueSize_eq, ConnectionBufferManager.getSendQueueSize_eq, h.pending_eq]
  · rw [Bool.eq_iff_iff, h.manager_wf.isSendQueueEmpty_iff, ← h.chunks_eq, List.map_eq_nil_iff,
      SendBufferQueue.isSendQueueEmpty, List.isEmpty_iff]

theorem enqueueSend (data : Bytes) : (s.perform (.enqueueSend data)).SameChunks := by
  obtain ⟨hq, -, -⟩ := h.queue_wf.enqueueSend data
  obtain ⟨hm, hunsent, hmax, -⟩ := h.manager_wf.enqueueSend_eq data true
  refine ⟨hq, hm, ?_, hmax.trans h.unlimited⟩
  have haccepts : s.manager.Accepts data true := by
    refine .inr ⟨?_, rfl⟩
    rw [h.unlimited]
    exact UInt64.le_iff_toNat_le.mpr (Nat.le_of_lt_succ (UInt64.toNat_lt _))
  show (s.queue.enqueueSend data).1.chunks.map Chunk.rest = _
  rw [show (s.perform (.enqueueSend data)).manager = (s.manager.enqueueSend data true).1 from rfl,
    hunsent, ← h.chunks_eq, SendBufferQueue.enqueueSend, ConnectionBufferManager.enqueued]
  by_cases hnil : data = []
  · rw [if_pos (List.length_eq_zero_iff.mpr hnil), if_neg fun hc => hc.1 hnil, List.append_nil]
  · rw [if_neg fun hz => hnil (List.length_eq_zero_iff.mp hz), if_pos ⟨hnil, haccepts⟩,
      List.map_append]
    rfl

theorem clearAll : (s.perform .clearAll).SameChunks :=
  ⟨SendBufferQueue.wellFormed_empty, ⟨nofun, nofun, fun _ => rfl⟩, rfl, h.unlimited⟩

/-- What the first chunk has left is what is shown. -/
theorem peekSend_of_unsent {chunk : Bytes} {rest : List Bytes}
    (hu : s.manager.unsent = chunk :: rest) : s.queue.peekSend = chunk := by
  rw [h.alike.peekSend_eq, h.manager_wf.peekSend_eq hu]

theorem length_chunks : s.queue.chunks.length = s.manager.unsent.length := by
  rw [← h.chunks_eq, List.length_map]

/-- **Within the first chunk, and with no other one, both consume the same.** -/
theorem consumeSend {n : ℕ} (hc : s.WithinFront (.consumeSend n)) :
    (s.perform (.consumeSend n)).SameChunks := by
  obtain ⟨hm, hpending⟩ := h.manager_wf.consumeSend_eq n
  refine ⟨h.queue_wf.consumeSend_wellFormed n, hm, ?_, h.unlimited⟩
  show (s.queue.consumeSend n).chunks.map Chunk.rest = (s.manager.consumeSend n).unsent
  have hchunks := h.chunks_eq
  cases hu : s.manager.unsent with
  | nil =>
    have hsame : s.queue.consumeSend n = s.queue := by
      rw [hu, List.map_eq_nil_iff] at hchunks
      rw [SendBufferQueue.consumeSend, hchunks]
    have hnone : (s.manager.consumeSend n).pending = [] := by
      rw [hpending, ConnectionBufferManager.pending, hu]
      exact List.drop_nil
    rw [hsame, hchunks, hu, hm.pending_eq_nil_iff.mp hnone]
  | cons chunk rest =>
    rw [hu] at hchunks
    by_cases hlt : n < chunk.length
    · rw [SendBufferQueue.consumeSend_of_lt hchunks hlt]
      by_cases hz : n = 0
      · rw [hz, ConnectionBufferManager.consumeSend_zero, hu, List.drop_zero]
      · exact (h.manager_wf.consumeSend_of_lt hu (Nat.pos_of_ne_zero hz) hlt).2.symm
    · have hle := Nat.le_of_not_lt hlt
      rw [h.queue_wf.consumeSend_of_le hchunks hle]
      rcases hc with hfront | hone
      · -- exactly the first chunk
        rw [h.peekSend_of_unsent hu] at hfront
        rw [Nat.le_antisymm hfront hle]
        exact (h.manager_wf.consumeSend_length hu).2.symm
      · -- the only one
        rw [h.length_chunks, hu, List.length_cons] at hone
        obtain rfl : rest = [] := List.length_eq_zero_iff.mp (by omega)
        refine (hm.pending_eq_nil_iff.mp ?_).symm
        rw [hpending, ConnectionBufferManager.pending, hu, List.flatten_singleton]
        exact List.drop_eq_nil_of_le hle

/-- **Beyond the first of several chunks they part**: the manager goes on to the next one. -/
theorem not_alike {call : SendCall} (hc : ¬ s.WithinFront call) : ¬ (s.perform call).Alike := by
  cases call with
  | enqueueSend data => exact absurd trivial hc
  | clearAll => exact absurd trivial hc
  | consumeSend n =>
    obtain ⟨hbeyond, hmore⟩ := not_or.mp hc
    intro halike
    cases hu : s.manager.unsent with
    | nil =>
      rw [h.length_chunks, hu] at hmore
      exact hmore (Nat.zero_le 1)
    | cons chunk rest =>
      rw [h.peekSend_of_unsent hu] at hbeyond
      rw [h.length_chunks, hu, List.length_cons] at hmore
      have hchunks := h.chunks_eq.trans hu
      -- one queue has the other chunks left, the other one less than these
      have hqueue : (s.queue.consumeSend n).pending = rest.flatten := by
        rw [SendBufferQueue.pending, h.queue_wf.consumeSend_of_le hchunks (by omega)]
      have hmanager : (s.manager.consumeSend n).pending = (chunk ++ rest.flatten).drop n := by
        rw [(h.manager_wf.consumeSend_eq n).2, ConnectionBufferManager.pending, hu,
          List.flatten_cons]
      have hne : ∀ next ∈ rest, next ≠ [] := fun next hnext =>
        h.manager_wf.unsent_ne_nil next (by rw [hu]; exact List.mem_cons_of_mem _ hnext)
      have hrest : 0 < rest.flatten.length := by
        rw [List.length_pos_iff, ne_eq, ConnectionBufferManager.flatten_eq_nil_iff_of_ne_nil hne,
          ← List.length_eq_zero_iff]
        omega
      have hlen := congrArg List.length
        (show (s.queue.consumeSend n).pending = _ from halike.pending_eq)
      rw [hqueue, show (s.perform (.consumeSend n)).manager = s.manager.consumeSend n from rfl,
        hmanager, List.length_drop, List.length_append] at hlen
      omega

end SameChunks

theorem sameChunks_start : ({} : TwoSendQueues).SameChunks :=
  ⟨SendBufferQueue.wellFormed_empty, ⟨nofun, nofun, fun _ => rfl⟩, rfl, rfl⟩

/-- The queue with a running total keeps it right, whatever is called. -/
theorem always_countsRight (calls : List SendCall) : machine.Always CountsRight {} calls := by
  refine Machine.always_of_step (I := fun s => s.queue.WellFormed)
    (fun s h => h.totalBytes_eq.trans (by rw [sum_rest, SendBufferQueue.pending]))
    (fun s call r h hr => ?_) SendBufferQueue.wellFormed_empty
  cases hr
  cases call with
  | enqueueSend data => exact (h.enqueueSend data).1
  | consumeSend n => exact h.consumeSend_wellFormed n
  | clearAll => exact SendBufferQueue.wellFormed_empty

/-- **The two send queues are interchangeable in a run exactly if no `ConsumeSend` of it goes
beyond the first of several chunks**; and the running total is right in every run. -/
theorem interchangeable_iff (calls : List SendCall) :
    machine.Always CountsRight {} calls ∧
      (machine.Always Alike {} calls ↔ machine.Along WithinFront {} calls) := by
  refine ⟨always_countsRight calls, Machine.always_iff_along (I := SameChunks)
    (fun s h => h.alike) (fun s call r h hc hr => ?_) (fun s call r h hc hr => ?_)
    sameChunks_start⟩
  · cases hr
    cases call with
    | enqueueSend data => exact h.enqueueSend data
    | consumeSend n => exact h.consumeSend hc
    | clearAll => exact h.clearAll
  · cases hr
    exact h.not_alike hc

/-- Two chunks of a byte each, and both bytes consumed with one call. -/
def bothAtOnce : List SendCall := [.enqueueSend [1], .enqueueSend [2], .consumeSend 2]

/-- The manager is empty then, and the other queue still has a byte. -/
theorem bothAtOnce_not_alike :
    ¬ machine.Always Alike {} bothAtOnce ∧
      (machine.run {} bothAtOnce).map (fun r => (r.1.queue.pending, r.1.manager.pending))
        = some ([2], []) := by
  refine ⟨fun h => ?_, by decide⟩
  exact absurd ((interchangeable_iff bothAtOnce).2.mp h) (by decide)

end TwoSendQueues
