import HttpServer.Cpp
import Mathlib.Data.List.Basic

/-!
# The send queue of a connection

The send side of `ConnectionBufferManager` (`core/Buffer/connection_buffer_mgr.cpp`):
a deque of buffers, each holding what one call wanted to send, and the number of
bytes of the first that have gone out already. What is still to be sent is
`unsent`, a list of chunks, and `pending` is its concatenation. Enqueuing appends
to it or leaves it alone, and consuming drops from its front.
-/

/-- `ConnectionBufferManager`, as far as sending goes: the contents of the buffers
of `send_queue_`, `send_consumed_` and `max_send_queue_size_`. -/
structure ConnectionBufferManager where
  sendQueue : List Bytes := []
  sendConsumed : ℕ := 0
  maxSendQueueSize : UInt64 := 1024 * 1024
  deriving DecidableEq, Repr

namespace ConnectionBufferManager

/-! ## The source -/

/-- `GetSendQueueSize`. -/
def getSendQueueSize (b : ConnectionBufferManager) : ℕ :=
  match b.sendQueue with
  | [] => 0
  | front :: rest =>
    rest.foldl (fun total buf => total + buf.length) (front.length - b.sendConsumed)

/-- `EnqueueSend`. `alloc` is the outcome of the allocation in `CloneBuffer`; the
new total is computed in `size_t`. -/
def enqueueSend (b : ConnectionBufferManager) (data : Bytes) (alloc : Bool) :
    ConnectionBufferManager × Bool :=
  if data.length = 0 then (b, true)
  else
    let newTotal : UInt64 := .ofNat b.getSendQueueSize + .ofNat data.length
    if b.maxSendQueueSize < newTotal then (b, false)
    else if !alloc then (b, false)
    else ({ b with sendQueue := b.sendQueue ++ [data] }, true)

/-- `PeekSend`: the contents of the view. -/
def peekSend (b : ConnectionBufferManager) : Bytes :=
  match b.sendQueue with
  | [] => []
  | front :: _ => if front.length ≤ b.sendConsumed then [] else front.drop b.sendConsumed

/-- The loop of `ConsumeSend` over the queue and the consumed part of its front. -/
def consumeSendLoop : List Bytes → ℕ → ℕ → List Bytes × ℕ
  | [], consumed, _ => ([], consumed)
  | front :: rest, consumed, bytes =>
    if bytes = 0 then (front :: rest, consumed)
    else
      let remaining := front.length - consumed
      if bytes < remaining then (front :: rest, consumed + bytes)
      else consumeSendLoop rest 0 (bytes - remaining)

/-- `ConsumeSend`. -/
def consumeSend (b : ConnectionBufferManager) (bytes : ℕ) : ConnectionBufferManager :=
  let r := consumeSendLoop b.sendQueue b.sendConsumed bytes
  { b with sendQueue := r.1, sendConsumed := r.2 }

/-- `IsSendQueueEmpty`. -/
def isSendQueueEmpty (b : ConnectionBufferManager) : Bool :=
  b.sendQueue.isEmpty && b.sendConsumed == 0

/-! ## What is still to be sent -/

/-- The states of the class: no buffer of the queue is empty, and the first has
not been sent completely. -/
structure WellFormed (b : ConnectionBufferManager) : Prop where
  ne_nil : ∀ buf ∈ b.sendQueue, buf ≠ []
  consumed_lt : ∀ front ∈ b.sendQueue.head?, b.sendConsumed < front.length
  consumed_eq : b.sendQueue = [] → b.sendConsumed = 0

/-- The unsent part of a queue whose front is consumed up to a position. -/
def unsentFrom : List Bytes → ℕ → List Bytes
  | [], _ => []
  | front :: rest, consumed => front.drop consumed :: rest

/-- The chunks still to be sent. -/
def unsent (b : ConnectionBufferManager) : List Bytes := unsentFrom b.sendQueue b.sendConsumed

/-- **The bytes still to be sent**, in order. -/
def pending (b : ConnectionBufferManager) : Bytes := b.unsent.flatten

variable {b : ConnectionBufferManager}

@[simp] theorem unsentFrom_zero (queue : List Bytes) : unsentFrom queue 0 = queue := by
  cases queue <;> rfl

theorem foldl_length (queue : List Bytes) (n : ℕ) :
    queue.foldl (fun total buf => total + buf.length) n = n + queue.flatten.length := by
  induction queue generalizing n with
  | nil => rfl
  | cons buf rest ih =>
    rw [List.foldl_cons, ih, List.flatten_cons, List.length_append, Nat.add_assoc]

/-- `getSendQueueSize` is the number of pending bytes. -/
@[simp] theorem getSendQueueSize_eq (b : ConnectionBufferManager) :
    b.getSendQueueSize = b.pending.length := by
  unfold getSendQueueSize pending unsent
  cases b.sendQueue with
  | nil => rfl
  | cons front rest =>
    show rest.foldl _ _ = _
    rw [foldl_length, unsentFrom, List.flatten_cons, List.length_append, List.length_drop]

theorem WellFormed.unsent_ne_nil (h : b.WellFormed) : ∀ chunk ∈ b.unsent, chunk ≠ [] := by
  obtain ⟨hne, hlt, -⟩ := h
  unfold unsent
  cases hq : b.sendQueue with
  | nil =>
    intro chunk hmem
    cases hmem
  | cons front rest =>
    rw [hq] at hne hlt
    have hfront := hlt front rfl
    intro chunk hmem
    rw [unsentFrom, List.mem_cons] at hmem
    rcases hmem with rfl | hmem
    · intro hnil
      have := List.drop_eq_nil_iff.mp hnil
      omega
    · exact hne chunk (List.mem_cons_of_mem _ hmem)

/-- Chunks that are not empty hold something. -/
theorem flatten_eq_nil_iff_of_ne_nil {chunks : List Bytes} (hne : ∀ chunk ∈ chunks, chunk ≠ []) :
    chunks.flatten = [] ↔ chunks = [] := by
  rw [List.flatten_eq_nil_iff]
  constructor
  · intro hnil
    cases chunks with
    | nil => rfl
    | cons chunk rest =>
      exact absurd (hnil chunk List.mem_cons_self) (hne chunk List.mem_cons_self)
  · rintro rfl chunk hmem
    cases hmem

theorem WellFormed.pending_eq_nil_iff (h : b.WellFormed) : b.pending = [] ↔ b.unsent = [] :=
  flatten_eq_nil_iff_of_ne_nil h.unsent_ne_nil

theorem unsent_eq_nil_iff : b.unsent = [] ↔ b.sendQueue = [] := by
  unfold unsent
  cases b.sendQueue <;> simp [unsentFrom]

theorem WellFormed.isSendQueueEmpty_iff (h : b.WellFormed) :
    b.isSendQueueEmpty = true ↔ b.unsent = [] := by
  rw [unsent_eq_nil_iff, isSendQueueEmpty, Bool.and_eq_true, List.isEmpty_iff, beq_iff_eq]
  exact ⟨fun he => he.1, fun he => ⟨he, h.consumed_eq he⟩⟩

/-- The view of `peekSend` is the first chunk. -/
theorem WellFormed.peekSend_eq (h : b.WellFormed) {chunk : Bytes} {rest : List Bytes}
    (hu : b.unsent = chunk :: rest) : b.peekSend = chunk := by
  unfold unsent at hu
  unfold peekSend
  cases hq : b.sendQueue with
  | nil =>
    rw [hq] at hu
    cases hu
  | cons front tl =>
    have hlt := h.consumed_lt front (by rw [hq]; rfl)
    rw [hq] at hu
    cases hu
    exact if_neg (Nat.not_le.mpr hlt)

/-! ## Enqueuing -/

/-- `enqueueSend` takes the data: they fit below the limit and the allocation
succeeds, or there are none. -/
def Accepts (b : ConnectionBufferManager) (data : Bytes) (alloc : Bool) : Prop :=
  data = [] ∨ UInt64.ofNat b.pending.length + UInt64.ofNat data.length ≤ b.maxSendQueueSize
    ∧ alloc = true

instance (b : ConnectionBufferManager) (data : Bytes) (alloc : Bool) :
    Decidable (b.Accepts data alloc) :=
  inferInstanceAs (Decidable (_ ∨ _))

/-- The chunks that `enqueueSend` adds. -/
def enqueued (b : ConnectionBufferManager) (data : Bytes) (alloc : Bool) : List Bytes :=
  if data ≠ [] ∧ b.Accepts data alloc then [data] else []

/-- **`enqueueSend` appends the data or changes nothing**, and says which. -/
theorem WellFormed.enqueueSend_eq (h : b.WellFormed) (data : Bytes) (alloc : Bool) :
    (b.enqueueSend data alloc).1.WellFormed
      ∧ (b.enqueueSend data alloc).1.unsent = b.unsent ++ b.enqueued data alloc
      ∧ (b.enqueueSend data alloc).1.maxSendQueueSize = b.maxSendQueueSize
      ∧ ((b.enqueueSend data alloc).2 = true ↔ b.Accepts data alloc) := by
  unfold enqueueSend enqueued Accepts
  by_cases hnil : data = []
  · subst hnil
    simpa using h
  have hlen : ¬ data.length = 0 := fun h0 => hnil (List.length_eq_zero_iff.mp h0)
  simp only [if_neg hlen, getSendQueueSize_eq]
  by_cases hmax : b.maxSendQueueSize < UInt64.ofNat b.pending.length + UInt64.ofNat data.length
  · have hle := UInt64.not_le.mpr hmax
    simpa [hmax, hle, hnil] using h
  have hle := UInt64.not_lt.mp hmax
  cases alloc with
  | false => simpa [hmax, hnil] using h
  | true =>
    simp only [hmax, hle, hnil, if_false, Bool.not_true, Bool.false_eq_true, and_self, or_true,
      and_true]
    rw [if_pos hnil]
    refine ⟨⟨?_, ?_, ?_⟩, ?_⟩
    · intro buf hmem
      rcases List.mem_append.mp hmem with hmem | hmem
      · exact h.ne_nil buf hmem
      · rwa [List.mem_singleton.mp hmem]
    · intro front hfront
      show b.sendConsumed < front.length
      cases hq : b.sendQueue with
      | nil =>
        rw [hq] at hfront
        cases hfront
        rw [h.consumed_eq hq]
        exact Nat.pos_of_ne_zero hlen
      | cons first rest =>
        rw [hq] at hfront
        exact h.consumed_lt front (by rw [hq]; exact hfront)
    · intro hcontra
      exact absurd hcontra (List.append_ne_nil_of_right_ne_nil _ (List.cons_ne_nil _ _))
    · unfold unsent
      cases hq : b.sendQueue with
      | nil =>
        rw [h.consumed_eq hq]
        rfl
      | cons front rest => rfl

/-- What is added is the data, if `enqueueSend` returns true. -/
theorem WellFormed.flatten_enqueued (h : b.WellFormed) (data : Bytes) (alloc : Bool) :
    (b.enqueued data alloc).flatten
      = if (b.enqueueSend data alloc).2 = true then data else [] := by
  obtain ⟨-, -, -, hres⟩ := h.enqueueSend_eq data alloc
  rw [enqueued]
  by_cases hnil : data = []
  · subst hnil
    rw [if_neg fun hc => hc.1 rfl, ite_self]
    rfl
  · by_cases ha : b.Accepts data alloc
    · rw [if_pos ⟨hnil, ha⟩, if_pos (hres.mpr ha), List.flatten_singleton]
    · rw [if_neg fun hc => ha hc.2, if_neg fun ht => ha (hres.mp ht)]
      rfl

/-! ## Consuming -/

theorem consumeSend_zero : b.consumeSend 0 = b := by
  obtain ⟨queue, consumed, max⟩ := b
  cases queue <;> rfl

/-- Consuming within the first chunk. -/
theorem WellFormed.consumeSend_of_lt (h : b.WellFormed) {chunk : Bytes} {rest : List Bytes}
    (hu : b.unsent = chunk :: rest) {n : ℕ} (hpos : 0 < n) (hn : n < chunk.length) :
    (b.consumeSend n).WellFormed ∧ (b.consumeSend n).unsent = chunk.drop n :: rest := by
  unfold unsent at hu
  unfold consumeSend unsent
  cases hq : b.sendQueue with
  | nil =>
    rw [hq] at hu
    cases hu
  | cons front tl =>
    rw [hq] at hu
    cases hu
    rw [List.length_drop] at hn
    have hloop : consumeSendLoop (front :: rest) b.sendConsumed n
        = (front :: rest, b.sendConsumed + n) := by
      rw [consumeSendLoop, if_neg (by omega), if_pos hn]
    rw [hloop]
    refine ⟨⟨fun buf hmem => h.ne_nil buf (hq ▸ hmem), ?_, ?_⟩, ?_⟩
    · intro first hfirst
      cases hfirst
      show b.sendConsumed + n < front.length
      omega
    · intro hcontra
      cases hcontra
    · show front.drop (b.sendConsumed + n) :: rest = (front.drop b.sendConsumed).drop n :: rest
      rw [List.drop_drop]

/-- Consuming the first chunk takes it off the queue. -/
theorem WellFormed.consumeSend_length (h : b.WellFormed) {chunk : Bytes} {rest : List Bytes}
    (hu : b.unsent = chunk :: rest) :
    (b.consumeSend chunk.length).WellFormed ∧ (b.consumeSend chunk.length).unsent = rest := by
  have hne := h.unsent_ne_nil chunk (by rw [hu]; exact List.mem_cons_self)
  unfold unsent at hu
  unfold consumeSend unsent
  cases hq : b.sendQueue with
  | nil =>
    rw [hq] at hu
    cases hu
  | cons front tl =>
    rw [hq] at hu
    cases hu
    have hpos : (front.drop b.sendConsumed).length ≠ 0 := fun h0 =>
      hne (List.length_eq_zero_iff.mp h0)
    have hloop : consumeSendLoop (front :: rest) b.sendConsumed (front.drop b.sendConsumed).length
        = (rest, 0) := by
      rw [consumeSendLoop, if_neg hpos, List.length_drop]
      simp only [Nat.lt_irrefl, if_false, Nat.sub_self]
      cases rest <;> rfl
    rw [hloop]
    refine ⟨⟨fun buf hmem => h.ne_nil buf (hq ▸ List.mem_cons_of_mem _ hmem), ?_, fun _ => rfl⟩,
      unsentFrom_zero rest⟩
    intro first hfirst
    have hmem : first ∈ rest := List.mem_of_mem_head? hfirst
    exact List.length_pos_of_ne_nil (h.ne_nil first (hq ▸ List.mem_cons_of_mem _ hmem))

/-- **`consumeSend` drops from the front of what is pending**, over as many buffers as it
takes, and all of it if there is less. -/
theorem WellFormed.consumeSend_eq (h : b.WellFormed) (n : ℕ) :
    (b.consumeSend n).WellFormed ∧ (b.consumeSend n).pending = b.pending.drop n := by
  obtain ⟨queue, consumed, max⟩ := b
  induction queue generalizing consumed n with
  | nil => exact ⟨h, List.drop_nil.symm⟩
  | cons front rest ih =>
    have hconsumed : consumed < front.length := h.consumed_lt front rfl
    have hunsent : unsent ⟨front :: rest, consumed, max⟩ = front.drop consumed :: rest := rfl
    have hpending : pending ⟨front :: rest, consumed, max⟩
        = front.drop consumed ++ rest.flatten := rfl
    by_cases hzero : n = 0
    · subst hzero
      exact ⟨h, rfl⟩
    by_cases hlt : n < (front.drop consumed).length
    · obtain ⟨hwf, hleft⟩ := h.consumeSend_of_lt hunsent (Nat.pos_of_ne_zero hzero) hlt
      refine ⟨hwf, ?_⟩
      rw [pending, hleft, hpending, List.flatten_cons,
        List.drop_append_of_le_length (Nat.le_of_lt hlt)]
    -- the first buffer is popped, and the rest of the loop starts at a whole one
    have hrest : WellFormed ⟨rest, 0, max⟩ :=
      ⟨fun buf hmem => h.ne_nil buf (List.mem_cons_of_mem _ hmem),
        fun first hfirst => List.length_pos_of_ne_nil
          (h.ne_nil first (List.mem_cons_of_mem _ (List.mem_of_mem_head? hfirst))),
        fun _ => rfl⟩
    rw [List.length_drop] at hlt
    have hloop : consumeSend ⟨front :: rest, consumed, max⟩ n
        = consumeSend ⟨rest, 0, max⟩ (n - (front.length - consumed)) := by
      unfold consumeSend
      rw [consumeSendLoop, if_neg hzero]
      dsimp only
      rw [if_neg hlt]
    have hdrop : (front.drop consumed ++ rest.flatten).drop n
        = rest.flatten.drop (n - (front.length - consumed)) := by
      rw [List.drop_append, List.length_drop, List.drop_eq_nil_of_le (by
        rw [List.length_drop]
        exact Nat.le_of_not_lt hlt), List.nil_append]
    obtain ⟨hwf, hleft⟩ := ih (n - (front.length - consumed)) 0 hrest
    rw [hloop, hpending, hdrop]
    refine ⟨hwf, ?_⟩
    rw [hleft, pending, unsent, unsentFrom_zero]

/-- A consumed view leaves a shorter queue. -/
theorem length_consumeSend_lt (b : ConnectionBufferManager) (h : b.peekSend.length ≠ 0) :
    (b.consumeSend b.peekSend.length).sendQueue.length < b.sendQueue.length := by
  unfold peekSend at h ⊢
  unfold consumeSend
  cases hq : b.sendQueue with
  | nil =>
    rw [hq] at h
    exact absurd rfl h
  | cons front rest =>
    simp only [hq] at h ⊢
    by_cases hle : front.length ≤ b.sendConsumed
    · rw [if_pos hle] at h
      exact absurd rfl h
    · rw [if_neg hle] at h ⊢
      rw [consumeSendLoop, if_neg h, List.length_drop]
      simp only [Nat.lt_irrefl, if_false, Nat.sub_self]
      cases rest <;> simp [consumeSendLoop]

end ConnectionBufferManager
