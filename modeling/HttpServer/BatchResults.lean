import HttpServer.SendBatch
import HttpServer.WaitingTasks

/-!
# What comes of batches

The last task of a batch waits for the others on a worker, which it keeps, and all workers may be
kept by such tasks. It does not matter: what a task waits for was scheduled before it, so that no
wait is for a task that is still in the queue, and one of the workers can always go on
(`BatchSystem.batches_never_stand_still`).

What a call returns in the end are the lengths of its strings, in their order, unless `Stop` has
dropped one of its tasks (`BatchSystem.batches_complete`). That is read off an invariant: the tasks
that were scheduled are those of the calls, and a task is queued, in the hands of a worker or
settled, which is executed or dropped. What a future holds says which of the two.
-/

namespace BatchSystem

variable {s : BatchSystem}

/-! ## The invariant -/

/-- A task that gathers waits for those whose futures it has. -/
def Waits : BatchTask → BatchTask → Prop
  | .gather _ futures, .send task => task ∈ futures
  | _, _ => False

/-- The task belongs to a call that has scheduled it. -/
def Scheduled (s : BatchSystem) : BatchTask → Prop
  | .send task => ∃ call, s.calls[task.batch]? = some call ∧ task ∈ call.futures
  | .gather batch futures =>
    ∃ call, s.calls[batch]? = some call ∧ call.returned = true ∧ futures = call.futures

/-- The tasks that nobody will execute any more. -/
def settled (s : BatchSystem) : List BatchTask := s.dropped ++ s.executed

/-- **What the task that gathers has returned**: the lengths, if all tasks it waited for were
executed, and an exception, if one of them was dropped. -/
def Gathered (s : BatchSystem) (batch : ℕ) (futures : List BatchSend) : Prop :=
  s.results batch = some (.value (futures.map fun task => task.data.length))
      ∧ (∀ task ∈ futures, .send task ∈ s.executed)
    ∨ s.results batch = some .brokenPromise ∧ ∃ task ∈ futures, .send task ∈ s.dropped

/-- **What holds in every state.** -/
structure Sound (s : BatchSystem) : Prop where
  account : WorkPool.Account s.scheduler.pool s.scheduled s.settled
  nodup : s.scheduled.Nodup
  scheduled_iff : ∀ task, task ∈ s.scheduled ↔ s.Scheduled task
  earlier : WorkPool.WaitForEarlier Waits s.scheduled
  regular : ∀ (batch : ℕ) (call : BatchCall), s.calls[batch]? = some call → call.Regular batch
  future_mem : ∀ task, (s.futures task).isSome → .send task ∈ s.settled
  future_executed : ∀ task, .send task ∈ s.executed →
    s.futures task = some (.value task.data.length)
  future_dropped : ∀ task, .send task ∈ s.dropped → s.futures task = some .brokenPromise
  result_mem : ∀ batch, (s.results batch).isSome → ∃ futures, .gather batch futures ∈ s.settled
  result_executed : ∀ batch futures, .gather batch futures ∈ s.executed → s.Gathered batch futures
  result_dropped : ∀ batch futures, .gather batch futures ∈ s.dropped →
    s.results batch = some .brokenPromise

theorem sound_start (workers maxConcurrent : ℕ) : (start workers maxConcurrent).Sound where
  account := by
    have h : (start workers maxConcurrent).scheduler.pool
        = ⟨[], List.replicate workers none⟩ :=
      congrArg (WorkPool.mk []) List.map_replicate
    rw [h]
    exact .start workers
  nodup := List.nodup_nil
  scheduled_iff task := by
    refine iff_of_false List.not_mem_nil ?_
    cases task <;> (rintro ⟨call, hcall, -⟩; cases hcall)
  earlier pre t post h := by simp [start] at h
  regular batch call h := by cases h
  future_mem task h := by cases h
  future_executed task h := absurd h List.not_mem_nil
  future_dropped task h := absurd h List.not_mem_nil
  result_mem batch h := by cases h
  result_executed batch futures h := absurd h List.not_mem_nil
  result_dropped batch futures h := absurd h List.not_mem_nil

/-- What is settled is settled once, and not queued or in the hands of a worker any more. -/
theorem Sound.nodup_settled (h : s.Sound) :
    (s.settled ++ s.scheduler.pool.outstanding).Nodup :=
  h.account.perm.nodup_iff.mpr h.nodup

theorem Sound.notMem_settled (h : s.Sound) {task : BatchTask}
    (htask : task ∈ s.scheduler.pool.outstanding) : task ∉ s.settled :=
  fun hsettled => List.disjoint_of_nodup_append h.nodup_settled hsettled htask

/-- A task that was dropped was not executed. -/
theorem Sound.notMem_executed (h : s.Sound) {task : BatchTask} (hdropped : task ∈ s.dropped) :
    task ∉ s.executed :=
  List.disjoint_of_nodup_append (List.nodup_append.mp h.nodup_settled).1 hdropped

/-- What is settled was scheduled. -/
theorem Sound.scheduled_of_settled (h : s.Sound) {task : BatchTask} (htask : task ∈ s.settled) :
    s.Scheduled task :=
  (h.scheduled_iff task).mp (h.account.perm.mem_iff.mp (List.mem_append_left _ htask))

/-- The scheduler goes on without a task. -/
theorem Sound.idle (h : s.Sound) {scheduler : ThreadPoolScheduler BatchTask} {workerThreads : ℕ}
    (haccount : WorkPool.Account scheduler.pool s.scheduled s.settled) :
    Sound { s with scheduler, workerThreads } :=
  ⟨haccount, h.nodup, h.scheduled_iff, h.earlier, h.regular, h.future_mem, h.future_executed,
    h.future_dropped, h.result_mem, h.result_executed, h.result_dropped⟩

/-- One call more. -/
theorem getElem?_concat {calls : List BatchCall} {new call : BatchCall} {batch : ℕ} :
    (calls ++ [new])[batch]? = some call
      ↔ calls[batch]? = some call ∨ batch = calls.length ∧ call = new := by
  rw [List.getElem?_append]
  split
  · rename_i hlt
    refine ⟨Or.inl, fun h => h.resolve_right fun h => ?_⟩
    exact absurd h.1 (Nat.ne_of_lt hlt)
  · rename_i hge
    rw [List.getElem?_eq_none (Nat.not_lt.mp hge)]
    rw [List.getElem?_singleton]
    split
    · rename_i hzero
      have hbatch : batch = calls.length := by omega
      rw [Option.some.injEq]
      exact ⟨fun h => Or.inr ⟨hbatch, h.symm⟩, fun h => (h.resolve_left nofun).2.symm⟩
    · rename_i hzero
      refine iff_of_false nofun ?_
      rintro (h | ⟨h, -⟩)
      · cases h
      · omega

theorem exists_call_iff {calls : List BatchCall} {call : BatchCall} {batch : ℕ}
    (hcall : calls[batch]? = some call) {P : BatchCall → Prop} :
    (∃ call', calls[batch]? = some call' ∧ P call') ↔ P call := by
  rw [hcall]
  simp

/-- A thread calls. The new call has no tasks yet. -/
theorem Sound.call (h : s.Sound) (dataList : List Bytes) :
    Sound { s with calls := s.calls ++ [{ dataList }] } := by
  refine ⟨h.account, h.nodup, fun task => (h.scheduled_iff task).trans ?_, h.earlier, ?_,
    h.future_mem, h.future_executed, h.future_dropped, h.result_mem, h.result_executed,
    h.result_dropped⟩
  · unfold Scheduled
    cases task with
    | send task =>
      simp only [getElem?_concat]
      refine ⟨fun ⟨call, hcall, hmem⟩ => ⟨call, Or.inl hcall, hmem⟩, ?_⟩
      rintro ⟨call, hcall | ⟨-, rfl⟩, hmem⟩
      · exact ⟨call, hcall, hmem⟩
      · cases hmem
    | gather batch futures =>
      simp only [getElem?_concat]
      refine ⟨fun ⟨call, hcall, hret⟩ => ⟨call, Or.inl hcall, hret⟩, ?_⟩
      rintro ⟨call, hcall | ⟨-, rfl⟩, hret⟩
      · exact ⟨call, hcall, hret⟩
      · cases hret.1
  · intro batch call hcall
    obtain hcall | ⟨-, rfl⟩ := getElem?_concat.mp hcall
    · exact h.regular batch call hcall
    · exact .new batch dataList

section Schedule

variable {batch : ℕ} {call : BatchCall} {task : BatchTask} (h : s.Sound)
  (hcall : s.calls[batch]? = some call) (hnext : call.nextTask batch = some task)
include h hcall hnext

/-- The next task of a call is a new one. -/
theorem Sound.notMem_scheduled : task ∉ s.scheduled := by
  rw [h.scheduled_iff]
  have hregular := h.regular batch call hcall
  cases task with
  | send task =>
    obtain ⟨rfl, hindex, -, -⟩ := hregular.nextTask_send hnext
    rintro ⟨call', hcall', hmem⟩
    rw [hcall] at hcall'
    cases hcall'
    exact absurd (hregular.numbered task hmem).2 (by omega)
  | gather batch' futures =>
    obtain ⟨rfl, -, hreturned, -⟩ := BatchCall.Regular.nextTask_gather hnext
    rintro ⟨call', hcall', hret, -⟩
    rw [hcall] at hcall'
    cases hcall'
    rw [hreturned] at hret
    cases hret

/-- What it waits for has been scheduled. -/
theorem Sound.mem_of_waits {task' : BatchTask} (hwaits : Waits task task') :
    task' ∈ s.scheduled := by
  cases task with
  | send task => exact hwaits.elim
  | gather batch' futures =>
    obtain ⟨rfl, rfl, -, -⟩ := BatchCall.Regular.nextTask_gather hnext
    cases task' with
    | gather batch futures => exact hwaits.elim
    | send task' =>
      refine (h.scheduled_iff _).mpr ⟨call, ?_, hwaits⟩
      rw [((h.regular _ call hcall).numbered task' hwaits).1]
      exact hcall

/-- **The tasks that are scheduled then** are those that were and this one. -/
theorem Sound.scheduled_advance {scheduler : ThreadPoolScheduler BatchTask} (task' : BatchTask) :
    Scheduled { s with scheduler, calls := s.calls.set batch (call.advance task)
                       scheduled := s.scheduled ++ [task] } task'
      ↔ s.Scheduled task' ∨ task' = task := by
  have hset : (s.calls.set batch (call.advance task))[batch]? = some (call.advance task) :=
    List.getElem?_set_self (List.getElem?_eq_some_iff.mp hcall).1
  have hregular := h.regular batch call hcall
  cases task' with
  | send task' =>
    show (∃ call', (s.calls.set batch (call.advance task))[task'.batch]? = some call'
        ∧ task' ∈ call'.futures)
      ↔ (∃ call', s.calls[task'.batch]? = some call' ∧ task' ∈ call'.futures) ∨ _
    by_cases hb : task'.batch = batch
    · rw [hb, exists_call_iff hset, exists_call_iff hcall, BatchCall.mem_futures_advance, eq_comm]
    · rw [List.getElem?_set_ne (Ne.symm hb)]
      refine (or_iff_left ?_).symm
      rintro rfl
      exact hb (hregular.nextTask_send hnext).1
  | gather batch' futures' =>
    show (∃ call', (s.calls.set batch (call.advance task))[batch']? = some call'
        ∧ call'.returned = true ∧ futures' = call'.futures)
      ↔ (∃ call', s.calls[batch']? = some call'
        ∧ call'.returned = true ∧ futures' = call'.futures) ∨ _
    by_cases hb : batch' = batch
    · -- the call returns with its task behind the loop, and not before
      subst hb
      have hreturned := hregular.not_returned hnext
      rw [exists_call_iff hset, exists_call_iff hcall, hreturned]
      cases task with
      | send task =>
        refine iff_of_false (fun hret => ?_) (by simp)
        exact absurd (hret.1 : call.returned = true) (Bool.eq_false_iff.mp hreturned)
      | gather batch'' futures =>
        obtain ⟨rfl, rfl, -, -⟩ := BatchCall.Regular.nextTask_gather hnext
        simp [BatchCall.advance]
    · rw [List.getElem?_set_ne (Ne.symm hb)]
      refine (or_iff_left ?_).symm
      rintro rfl
      exact hb (BatchCall.Regular.nextTask_gather hnext).1

/-- A call goes on. -/
theorem Sound.schedule {scheduler : ThreadPoolScheduler BatchTask}
    (hpool : WorkPool.Step s.scheduler.pool (.put task) scheduler.pool) :
    Sound { s with scheduler, calls := s.calls.set batch (call.advance task)
                   scheduled := s.scheduled ++ [task] } where
  account := h.account.put hpool
  nodup := by
    refine List.nodup_append.mpr ⟨h.nodup, List.nodup_singleton task, fun t ht t' ht' heq => ?_⟩
    rw [List.mem_singleton.mp ht'] at heq
    exact h.notMem_scheduled hcall hnext (heq ▸ ht)
  scheduled_iff task' := by
    rw [h.scheduled_advance hcall hnext, ← h.scheduled_iff, List.mem_append, List.mem_singleton]
  earlier := h.earlier.concat fun _ hwaits => h.mem_of_waits hcall hnext hwaits
  regular batch' call' hcall' := by
    rw [List.getElem?_set] at hcall'
    split at hcall'
    · rename_i hb
      subst hb
      split at hcall'
      · cases hcall'
        exact (h.regular batch call hcall).advance hnext
      · cases hcall'
    · exact h.regular batch' call' hcall'
  future_mem := h.future_mem
  future_executed := h.future_executed
  future_dropped := h.future_dropped
  result_mem := h.result_mem
  result_executed := h.result_executed
  result_dropped := h.result_dropped

end Schedule

/-- The loop comes to its end if all futures are ready. -/
theorem isSome_getAll {futures : List BatchSend} (h : ∀ task ∈ futures, (s.futures task).isSome) :
    (s.getAll futures).isSome := by
  induction futures with
  | nil => rfl
  | cons task futures ih =>
    have hrest := ih fun task' ht => h task' (List.mem_cons_of_mem _ ht)
    obtain ⟨settled, hsettled⟩ := Option.isSome_iff_exists.mp (h task List.mem_cons_self)
    obtain ⟨rest, hrest⟩ := Option.isSome_iff_exists.mp hrest
    rw [getAll, hsettled, hrest]
    cases settled with
    | brokenPromise => rfl
    | value size => cases rest <;> rfl

/-- **What `get` on all futures comes to.** -/
theorem Sound.getAll_cases (h : s.Sound) {futures : List BatchSend} {result : Settled (List ℕ)}
    (hget : s.getAll futures = some result) :
    result = .value (futures.map fun task => task.data.length)
        ∧ (∀ task ∈ futures, .send task ∈ s.executed)
      ∨ result = .brokenPromise ∧ ∃ task ∈ futures, .send task ∈ s.dropped := by
  induction futures generalizing result with
  | nil =>
    cases hget
    exact Or.inl ⟨rfl, fun task htask => absurd htask List.not_mem_nil⟩
  | cons task futures ih =>
    rw [getAll] at hget
    cases hfuture : s.futures task with
    | none =>
      rw [hfuture] at hget
      cases hget
    | some settled =>
      rw [hfuture] at hget
      obtain hdropped | hexecuted := List.mem_append.mp
        (h.future_mem task (hfuture ▸ rfl : (s.futures task).isSome))
      · rw [h.future_dropped task hdropped] at hfuture
        cases hfuture
        cases hget
        exact Or.inr ⟨rfl, task, List.mem_cons_self, hdropped⟩
      · rw [h.future_executed task hexecuted] at hfuture
        cases hfuture
        dsimp only at hget
        cases hrest : s.getAll futures with
        | none =>
          rw [hrest] at hget
          cases hget
        | some rest =>
          rw [hrest] at hget
          obtain ⟨rfl, hall⟩ | ⟨rfl, task', htask', hdropped⟩ := ih hrest
          · cases hget
            exact Or.inl ⟨rfl, List.forall_mem_cons.mpr ⟨hexecuted, hall⟩⟩
          · cases hget
            exact Or.inr ⟨rfl, task', List.mem_cons_of_mem _ htask', hdropped⟩

/-- What was gathered stays so when more is settled. -/
theorem Gathered.mono {s' : BatchSystem} {batch : ℕ} {futures : List BatchSend}
    (h : s.Gathered batch futures) (hresults : s'.results batch = s.results batch)
    (hexecuted : s.executed ⊆ s'.executed) (hdropped : s.dropped ⊆ s'.dropped) :
    s'.Gathered batch futures := by
  unfold Gathered
  rw [hresults]
  refine h.imp (fun hvalue => ⟨hvalue.1, fun task ht => hexecuted (hvalue.2 task ht)⟩) ?_
  rintro ⟨hbroken, task, htask, hmem⟩
  exact ⟨hbroken, task, htask, hdropped hmem⟩

/-- The future of a task that is being settled was not ready, and no other one has changed. -/
theorem Sound.update_send (h : s.Sound) {task task' : BatchSend} {future : Settled ℕ}
    (htask : .send task ∈ s.scheduler.pool.outstanding) (hmem : .send task' ∈ s.settled) :
    Function.update s.futures task (some future) task' = s.futures task' :=
  Function.update_of_ne (fun heq : task' = task => h.notMem_settled htask (heq ▸ hmem)) ..

/-- There is one task that gathers for a call. -/
theorem Sound.eq_of_gather (h : s.Sound) {batch : ℕ} {futures futures' : List BatchSend}
    (hg : .gather batch futures ∈ s.scheduled) (hg' : .gather batch futures' ∈ s.scheduled) :
    futures = futures' := by
  obtain ⟨call, hcall, -, rfl⟩ := (h.scheduled_iff _).mp hg
  obtain ⟨call', hcall', -, rfl⟩ := (h.scheduled_iff _).mp hg'
  rw [hcall] at hcall'
  cases hcall'
  rfl

/-- The same for the result of a call. -/
theorem Sound.update_gather (h : s.Sound) {batch batch' : ℕ} {futures futures' : List BatchSend}
    {result : Settled (List ℕ)} (hout : .gather batch futures ∈ s.scheduler.pool.outstanding)
    (hmem : .gather batch' futures' ∈ s.settled) :
    Function.update s.results batch (some result) batch' = s.results batch' := by
  refine Function.update_of_ne ?_ ..
  rintro rfl
  have heq : futures' = futures :=
    h.eq_of_gather (h.account.perm.mem_iff.mp (List.mem_append_left _ hmem))
      (h.account.perm.mem_iff.mp (List.mem_append_right _ hout))
  exact h.notMem_settled hout (heq ▸ hmem)

section Settle

variable {scheduler : ThreadPoolScheduler BatchTask} {executed dropped : List BatchTask}
  (h : s.Sound) (hexecuted : s.executed ⊆ executed) (hdropped : s.dropped ⊆ dropped)
  (haccount : WorkPool.Account scheduler.pool s.scheduled (dropped ++ executed))

include hexecuted hdropped in
theorem mem_settled_mono {task : BatchTask} (hmem : task ∈ s.settled) :
    task ∈ dropped ++ executed :=
  List.mem_append.mpr ((List.mem_append.mp hmem).imp (fun ht => hdropped ht) fun ht => hexecuted ht)

include h hexecuted hdropped haccount

/-- **A task for a string is settled**, one way or the other. -/
theorem Sound.settle_send {task : BatchSend} {future : Settled ℕ}
    (hout : .send task ∈ s.scheduler.pool.outstanding)
    (hmem : BatchTask.send task ∈ dropped ++ executed)
    (hnew : ∀ t ∈ executed, t ∈ s.executed ∨ t = .send task ∧ future = .value task.data.length)
    (hnew' : ∀ t ∈ dropped, t ∈ s.dropped ∨ t = .send task ∧ future = .brokenPromise) :
    Sound { s with
      scheduler, executed, dropped, futures := Function.update s.futures task (some future) } where
  account := haccount
  nodup := h.nodup
  scheduled_iff := h.scheduled_iff
  earlier := h.earlier
  regular := h.regular
  future_mem task' hsome := by
    by_cases heq : task' = task
    · rw [heq]
      exact hmem
    · have hsome : (Function.update s.futures task (some future) task').isSome := hsome
      rw [Function.update_of_ne heq] at hsome
      exact mem_settled_mono hexecuted hdropped (h.future_mem task' hsome)
  future_executed task' hmem' := by
    obtain hold | ⟨heq, rfl⟩ := hnew _ hmem'
    · exact (h.update_send hout (List.mem_append_right _ hold)).trans (h.future_executed task' hold)
    · cases heq
      exact Function.update_self ..
  future_dropped task' hmem' := by
    obtain hold | ⟨heq, rfl⟩ := hnew' _ hmem'
    · exact (h.update_send hout (List.mem_append_left _ hold)).trans (h.future_dropped task' hold)
    · cases heq
      exact Function.update_self ..
  result_mem batch hsome := by
    obtain ⟨futures, hgather⟩ := h.result_mem batch hsome
    exact ⟨futures, mem_settled_mono hexecuted hdropped hgather⟩
  result_executed batch futures hmem' := by
    obtain hold | ⟨heq, -⟩ := hnew _ hmem'
    · exact (h.result_executed batch futures hold).mono rfl hexecuted hdropped
    · cases heq
  result_dropped batch futures hmem' := by
    obtain hold | ⟨heq, -⟩ := hnew' _ hmem'
    · exact h.result_dropped batch futures hold
    · cases heq

/-- **A task that gathers is settled**, one way or the other. -/
theorem Sound.settle_gather {batch : ℕ} {futures : List BatchSend} {result : Settled (List ℕ)}
    (hout : .gather batch futures ∈ s.scheduler.pool.outstanding)
    (hmem : BatchTask.gather batch futures ∈ dropped ++ executed)
    (hnew : ∀ t ∈ executed, t ∈ s.executed ∨ t = .gather batch futures
      ∧ s.getAll futures = some result)
    (hnew' : ∀ t ∈ dropped, t ∈ s.dropped ∨ t = .gather batch futures
      ∧ result = .brokenPromise) :
    Sound { s with
      scheduler, executed, dropped, results := Function.update s.results batch (some result) } where
  account := haccount
  nodup := h.nodup
  scheduled_iff := h.scheduled_iff
  earlier := h.earlier
  regular := h.regular
  future_mem task hsome := mem_settled_mono hexecuted hdropped (h.future_mem task hsome)
  future_executed task hmem' := by
    obtain hold | ⟨heq, -⟩ := hnew _ hmem'
    · exact h.future_executed task hold
    · cases heq
  future_dropped task hmem' := by
    obtain hold | ⟨heq, -⟩ := hnew' _ hmem'
    · exact h.future_dropped task hold
    · cases heq
  result_mem batch' hsome := by
    by_cases heq : batch' = batch
    · rw [heq]
      exact ⟨futures, hmem⟩
    · have hsome : (Function.update s.results batch (some result) batch').isSome := hsome
      rw [Function.update_of_ne heq] at hsome
      obtain ⟨futures', hgather⟩ := h.result_mem batch' hsome
      exact ⟨futures', mem_settled_mono hexecuted hdropped hgather⟩
  result_executed batch' futures' hmem' := by
    obtain hold | ⟨heq, hget⟩ := hnew _ hmem'
    · exact (h.result_executed batch' futures' hold).mono
        (h.update_gather hout (List.mem_append_right _ hold)) hexecuted hdropped
    · cases heq
      have hresult : Function.update s.results batch (some result) batch = some result :=
        Function.update_self ..
      obtain ⟨rfl, hall⟩ | ⟨rfl, task, htask, hbroken⟩ := h.getAll_cases hget
      · exact Or.inl ⟨hresult, fun task ht => hexecuted (hall task ht)⟩
      · exact Or.inr ⟨hresult, task, htask, hdropped hbroken⟩
  result_dropped batch' futures' hmem' := by
    obtain hold | ⟨heq, rfl⟩ := hnew' _ hmem'
    · exact (h.update_gather hout (List.mem_append_left _ hold)).trans
        (h.result_dropped batch' futures' hold)
    · cases heq
      exact Function.update_self ..

end Settle

/-- What is in a list with one more is in the list, or it is that one. -/
theorem mem_concat_imp {tasks : List BatchTask} {task t : BatchTask} {P : Prop} (hP : P)
    (ht : t ∈ tasks ++ [task]) : t ∈ tasks ∨ t = task ∧ P :=
  (List.mem_append.mp ht).imp id fun hlast => ⟨List.mem_singleton.mp hlast, hP⟩

/-- **A worker has executed its task.** -/
theorem Sound.execute (h : s.Sound) {i : ℕ} {task : BatchTask} {s₁ : BatchSystem}
    {scheduler : ThreadPoolScheduler BatchTask} (hperform : s.perform task = some s₁)
    (hpool : WorkPool.Step s.scheduler.pool (.finish i task) scheduler.pool) :
    Sound { s₁ with scheduler, executed := s.executed ++ [task] } := by
  have haccount : WorkPool.Account scheduler.pool s.scheduled
      (s.dropped ++ (s.executed ++ [task])) := by
    rw [← List.append_assoc]
    exact h.account.finish hpool
  have hout : task ∈ s.scheduler.pool.outstanding :=
    List.mem_append_left _ hpool.mem_held_of_finish
  have hmem : task ∈ s.dropped ++ (s.executed ++ [task]) :=
    List.mem_append_right _ (List.mem_append_right _ (List.mem_singleton_self task))
  have hsub : s.executed ⊆ s.executed ++ [task] := List.subset_append_left _ _
  cases task with
  | send task =>
    cases hperform
    exact h.settle_send hsub (List.Subset.refl _) haccount hout hmem
      (fun _ ht => mem_concat_imp rfl ht) fun _ ht => Or.inl ht
  | gather batch futures =>
    obtain ⟨result, hget, rfl⟩ := Option.map_eq_some_iff.mp hperform
    exact h.settle_gather hsub (List.Subset.refl _) haccount hout hmem
      (fun _ ht => mem_concat_imp hget ht) fun _ ht => Or.inl ht

/-- **`Stop` has taken a task out of the queue.** -/
theorem Sound.popTask (h : s.Sound) {task : BatchTask} {tasks : List BatchTask}
    (htasks : s.scheduler.tasks = task :: tasks) : (s.popTask task tasks).Sound := by
  have hdone : (s.dropped ++ [task] ++ s.executed).Perm (task :: s.settled) := by
    rw [List.append_assoc]
    exact List.perm_middle
  have haccount : WorkPool.Account (ThreadPoolScheduler.pool { s.scheduler with tasks })
      s.scheduled (s.dropped ++ [task] ++ s.executed) := h.account.drop htasks hdone
  have hout : task ∈ s.scheduler.pool.outstanding := by
    refine List.mem_append_right _ ?_
    show task ∈ s.scheduler.tasks
    rw [htasks]
    exact List.mem_cons_self
  have hmem : task ∈ s.dropped ++ [task] ++ s.executed :=
    List.mem_append_left _ (List.mem_append_right _ (List.mem_singleton_self task))
  have hsub : s.dropped ⊆ s.dropped ++ [task] := List.subset_append_left _ _
  cases task with
  | send task =>
    exact h.settle_send (List.Subset.refl _) hsub haccount hout hmem
      (fun _ ht => Or.inl ht) fun _ ht => mem_concat_imp rfl ht
  | gather batch futures =>
    exact h.settle_gather (List.Subset.refl _) hsub haccount hout hmem
      (fun _ ht => Or.inl ht) fun _ ht => mem_concat_imp rfl ht

/-- `Stop` has emptied the queue. -/
theorem Sound.clearTasks {tasks : List BatchTask} (h : s.Sound)
    (htasks : s.scheduler.tasks = tasks) : (clearTasks tasks s).Sound := by
  induction tasks generalizing s with
  | nil => exact h
  | cons task tasks ih => exact ih (h.popTask htasks) rfl

/-- **Every step keeps the invariant.** -/
theorem Sound.effect {s' : BatchSystem} (h : s.Sound) (he : s.Effect s') : s'.Sound := by
  cases he with
  | call dataList => exact h.call dataList
  | schedule hcall hnext hpool => exact h.schedule hcall hnext hpool
  | idle hqueue hheld => exact h.idle (h.account.congr hqueue hheld)
  | take hpool => exact h.idle (h.account.take hpool)
  | execute hperform hpool => exact h.execute hperform hpool
  | clear hqueue hheld => exact (h.idle (h.account.congr hqueue hheld)).clearTasks rfl

theorem sound_of_run {kind : SchedulerKind} {workers maxConcurrent : ℕ}
    {actions : List BatchAction} {os : List Unit}
    (hr : (machine kind).run (start workers maxConcurrent) actions = some (s, os)) : s.Sound :=
  Machine.run_invariant (I := fun s _ => s.Sound) (sound_start workers maxConcurrent)
    (fun _ _ _ _ h hstep => h.effect (effect_of_step (machine_step hstep))) hr

/-! ## Runs -/

/-- A task whose wait is over can be executed by the worker that has it. -/
theorem exists_execute (kind : SchedulerKind) {i : ℕ} {task : BatchTask}
    (hw : s.scheduler.workers[i]? = some (.running task)) {s₁ : BatchSystem}
    (hperform : s.perform task = some s₁) : ∃ s', s.step kind (.execute i) = some s' := by
  have hstep : s.scheduler.stepOf kind (.execute i true)
      = some (s.scheduler.setWorker i (.count true)) := by
    cases kind <;> (show s.scheduler.step (.execute i true) = _; rw [ThreadPoolScheduler.step, hw])
  refine ⟨{ s₁ with scheduler := s.scheduler.setWorker i (.count true)
                    executed := s.executed ++ [task] }, ?_⟩
  show s.execute kind i = _
  rw [execute, hw]
  dsimp only
  rw [hperform, Option.bind_some, hstep]
  rfl

/-- A worker that has a task in its hands executes it. -/
theorem exists_running {task : BatchTask} (h : task ∈ s.scheduler.pool.held) :
    ∃ i : ℕ, s.scheduler.workers[i]? = some (.running task) := by
  have hmem : some task ∈ s.scheduler.workers.map Worker.task := List.reduceOption_mem_iff.mp h
  obtain ⟨w, hw, hwtask⟩ := List.mem_map.mp hmem
  obtain ⟨i, hi⟩ := List.getElem?_of_mem hw
  cases w with
  | running t =>
    cases hwtask
    exact ⟨i, hi⟩
  | _ => cases hwtask

/-- The future of a task that is settled is ready. -/
theorem Sound.isSome_future (h : s.Sound) {task : BatchSend} (hmem : .send task ∈ s.settled) :
    (s.futures task).isSome := by
  obtain hdropped | hexecuted := List.mem_append.mp hmem
  · rw [h.future_dropped task hdropped]
    rfl
  · rw [h.future_executed task hexecuted]
    rfl

/-- **Batches never stand still.** Whatever the number of workers, from one on, and the limit, for
every number of calls of `SendBatchAsync` with any strings and in every order of the steps, `Stop`
and `Start` among them: as long as a worker has a task in its hands, one of them can execute its
task to the end, so that not all of them wait for futures. -/
theorem batches_never_stand_still {kind : SchedulerKind} {workers maxConcurrent : ℕ}
    {actions : List BatchAction} {os : List Unit}
    (hr : (machine kind).run (start workers maxConcurrent) actions = some (s, os))
    (hheld : s.scheduler.pool.held ≠ []) : ∃ i r, (machine kind).step s (.execute i) = some r := by
  have h := sound_of_run hr
  obtain ⟨task, hmem, hready⟩ := h.account.exists_ready h.nodup h.earlier hheld
  obtain ⟨i, hw⟩ := exists_running hmem
  have hperform : ∃ s₁, s.perform task = some s₁ := by
    cases task with
    | send task => exact ⟨_, rfl⟩
    | gather batch futures =>
      have hall : (s.getAll futures).isSome :=
        isSome_getAll fun task ht => h.isSome_future (hready (.send task) ht)
      obtain ⟨result, hget⟩ := Option.isSome_iff_exists.mp hall
      exact ⟨_, congrArg (Option.map _) hget⟩
  obtain ⟨s₁, hperform⟩ := hperform
  obtain ⟨s', hs'⟩ := exists_execute kind hw hperform
  exact ⟨i, (s', ()), congrArg (Option.map _) hs'⟩

/-- The task for the only string of a batch. -/
def onlyTask : BatchSend := ⟨0, 0, [1, 2]⟩

/-- Two workers have taken the two tasks of a batch, so that the second one waits for what the
first one returns. -/
def takeBoth : List BatchAction :=
  [.sendBatchAsync [[1, 2]], .schedule 0, .schedule 0]
    ++ List.replicate 6 (.scheduler (.worker 0)) ++ List.replicate 6 (.scheduler (.worker 1))

/-- The state then. -/
def bothHeld : BatchSystem where
  scheduler :=
    { activeTasks := 2
      maxConcurrent := 2
      workers := [.running (.send onlyTask), .running (.gather 0 [onlyTask])]
      notifyOnes := 2 }
  workerThreads := 2
  calls := [⟨[[1, 2]], [onlyTask], true⟩]
  scheduled := [.send onlyTask, .gather 0 [onlyTask]]

theorem batches_never_stand_still_both :
    (machine .createDefault).step bothHeld (.execute 1) = none
      ∧ ∃ i r, (machine .createDefault).step bothHeld (.execute i) = some r := by
  have hr : (machine .createDefault).run (start 2 2) takeBoth
      = some (bothHeld, List.replicate 15 ()) := rfl
  exact ⟨rfl, batches_never_stand_still hr (List.cons_ne_nil _ _)⟩

/-- **Batches are complete and in order.** In every run, what a call has returned in its future are
the lengths of its strings, one for each and in their order, if it is not an exception; and when
nothing is queued or in the hands of a worker, every call that has scheduled its tasks has these
lengths, or the exception if `Stop` has dropped one of its tasks. -/
theorem batches_complete {kind : SchedulerKind} {workers maxConcurrent : ℕ}
    {actions : List BatchAction} {os : List Unit}
    (hr : (machine kind).run (start workers maxConcurrent) actions = some (s, os)) :
    (∀ batch sizes, s.results batch = some (.value sizes) →
        ∃ call, s.calls[batch]? = some call ∧ sizes = call.dataList.map List.length)
      ∧ (s.scheduler.pool.outstanding = [] → ∀ (batch : ℕ) (call : BatchCall),
        s.calls[batch]? = some call → call.returned = true →
          s.results batch = some (if ∃ task ∈ s.dropped, task.batch = batch then .brokenPromise
            else .value (call.dataList.map List.length))) := by
  have h := sound_of_run hr
  refine ⟨fun batch sizes hsizes => ?_, fun hnone batch call hcall hret => ?_⟩
  · obtain ⟨futures, hgather⟩ := h.result_mem batch (by rw [hsizes]; rfl)
    obtain ⟨call, hcall, hret, rfl⟩ := h.scheduled_of_settled hgather
    refine ⟨call, hcall, ?_⟩
    obtain hdropped | hexecuted := List.mem_append.mp hgather
    · rw [h.result_dropped batch _ hdropped] at hsizes
      cases hsizes
    · obtain ⟨hvalue, -⟩ | ⟨hbroken, -⟩ := h.result_executed batch _ hexecuted
      · rw [hvalue] at hsizes
        cases hsizes
        exact (h.regular batch call hcall).sizes_eq hret
      · rw [hbroken] at hsizes
        cases hsizes
  · have hregular := h.regular batch call hcall
    have hgather : .gather batch call.futures ∈ s.settled := by
      have hmem := (h.scheduled_iff (.gather batch call.futures)).mpr ⟨call, hcall, hret, rfl⟩
      have hperm := h.account.perm
      rw [hnone, List.append_nil] at hperm
      exact hperm.mem_iff.mpr hmem
    obtain hdropped | hexecuted := List.mem_append.mp hgather
    · rw [if_pos ⟨_, hdropped, rfl⟩]
      exact h.result_dropped batch _ hdropped
    obtain ⟨hvalue, hall⟩ | ⟨hbroken, task, htask, hdropped⟩ := h.result_executed batch _ hexecuted
    · rw [if_neg ?_, hvalue, hregular.sizes_eq hret]
      rintro ⟨task, hdropped, rfl⟩
      refine h.notMem_executed hdropped ?_
      have hscheduled := h.scheduled_of_settled (List.mem_append_left _ hdropped)
      cases task with
      | send task =>
        obtain ⟨call', hcall', hmem⟩ := hscheduled
        rw [show s.calls[task.batch]? = some call from hcall] at hcall'
        cases hcall'
        exact hall task hmem
      | gather batch futures =>
        obtain ⟨call', hcall', -, rfl⟩ := hscheduled
        rw [show s.calls[batch]? = some call from hcall] at hcall'
        cases hcall'
        exact hexecuted
    · rw [if_pos ⟨_, hdropped, (hregular.numbered task htask).1⟩]
      exact hbroken

/-- The two workers execute the tasks of a call and leave at `Stop`. The task for the only string of
a second call is dropped, and the one that gathers is executed when the scheduler has been started
again. -/
def dropSecond : List BatchAction :=
  takeBoth ++ [.execute 0, .execute 1]
    ++ List.replicate 2 (.scheduler (.worker 0)) ++ [.scheduler (.workerNotify 0 none)]
    ++ List.replicate 2 (.scheduler (.worker 1)) ++ [.scheduler (.workerNotify 1 none)]
    ++ .scheduler .stop :: List.replicate 3 (.scheduler (.worker 0))
    ++ List.replicate 3 (.scheduler (.worker 1))
    ++ [.sendBatchAsync [[3]], .schedule 1, .stopped, .schedule 1, .startAgain]
    ++ List.replicate 6 (.scheduler (.worker 0)) ++ [.execute 0]

/-- The state then: the first worker has still to count. -/
def secondDropped : BatchSystem where
  scheduler :=
    { activeTasks := 1
      maxConcurrent := 2
      workers := [.count true, .lock]
      notifyOnes := 4 }
  workerThreads := 2
  calls := [⟨[[1, 2]], [onlyTask], true⟩, ⟨[[3]], [⟨1, 0, [3]⟩], true⟩]
  futures := Function.update (Function.update (fun _ => none) onlyTask (some (.value 2)))
    ⟨1, 0, [3]⟩ (some .brokenPromise)
  results := Function.update (Function.update (fun _ => none) 0 (some (.value [2])))
    1 (some .brokenPromise)
  scheduled := [.send onlyTask, .gather 0 [onlyTask], .send ⟨1, 0, [3]⟩, .gather 1 [⟨1, 0, [3]⟩]]
  executed := [.send onlyTask, .gather 0 [onlyTask], .gather 1 [⟨1, 0, [3]⟩]]
  dropped := [.send ⟨1, 0, [3]⟩]

theorem batches_complete_dropSecond :
    secondDropped.results 0 = some (.value [2])
      ∧ secondDropped.results 1 = some .brokenPromise := by
  have hr : (machine .createDefault).run (start 2 2) dropSecond
      = some (secondDropped, List.replicate 42 ()) := rfl
  exact ⟨(batches_complete hr).2 rfl 0 _ rfl rfl, (batches_complete hr).2 rfl 1 _ rfl rfl⟩

end BatchSystem
