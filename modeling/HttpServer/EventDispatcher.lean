import HttpServer.ConnectionLife
import HttpServer.Threads
import HttpServer.WorkPool

/-!
# The global event dispatcher

`DefaultEventDispatcher` of `core/Event/event_dispatcher.cpp`, as the thread that publishes the
notifications of one connection sees it, with the workers that carry them out. A notification is a
task, which calls `OnEvent`, `OnData` or `OnError` of the registered subscribers and then the
callbacks that are subscribed to its topic. Without asynchronous dispatch the publishing thread
runs the task itself; with it the task goes into a queue, and a worker takes it off and runs it,
without a lock.

A thread that runs a task reads the table of subscribers under `mutex_`, calls one of them after
the other, reads the callbacks, and calls these: each of it is one step (`advance`), and any thread
may come next. The order of the snapshot is that of an `unordered_map`, and any. The publishing
thread is the first of the threads. `RouteEvent`, the statistics and the end of the dispatcher are
left out.

Tasks leave the queue in order, but nothing keeps a worker from being overtaken by one that has
taken a later task. `notifications_in_order_iff` says when a receiver gets its notifications in
the order in which they were published: each call of it is made in its turn.
-/

/-- What is published of a connection; `E` is `ConnectionEvent`. -/
inductive Notification (E : Type*)
  | event (e : E)
  | data (data : Bytes)
  | error (ec : ℤ)
  deriving DecidableEq

/-- What a callback is subscribed to. -/
inductive Topic (E : Type*)
  | event (e : E)
  | data
  | error
  deriving DecidableEq

def Notification.topic {E : Type*} : Notification E → Topic E
  | .event e => .event e
  | .data _ => .data
  | .error _ => .error

/-- Who is told: a subscriber, by its id, or a callback, by its place among all of them and what
it is subscribed to. -/
inductive Receiver (E : Type*)
  | subscriber (id : Bytes)
  | callback (i : ℕ) (topic : Topic E)
  deriving DecidableEq

/-- The task of a notification, with the number under which it was published. -/
structure NotifyTask (E : Type*) where
  number : ℕ
  notification : Notification E
  deriving DecidableEq

/-- Where a thread is. -/
inductive NotifyThread (E : Type*)
  | idle
  /-- It has a task and has not yet read the table of subscribers. -/
  | task (t : NotifyTask E)
  /-- It still has these subscribers to call. -/
  | subscribers (t : NotifyTask E) (rest : List Bytes)
  /-- It still has these callbacks to call. -/
  | callbacks (t : NotifyTask E) (rest : List ℕ)
  deriving DecidableEq

/-- A `DefaultEventDispatcher` with its threads, the publishing one first, what has been
published, and who has been told what. -/
structure EventDispatcher (E : Type*) where
  asyncDispatch : Bool := false
  maxQueueSize : ℕ := 1000
  taskQueue : List (NotifyTask E) := []
  subscribers : List Bytes := []
  callbacks : List (Topic E) := []
  threads : List (NotifyThread E)
  published : List (NotifyTask E) := []
  log : List (Receiver E × NotifyTask E) := []
  deriving DecidableEq

/-- A subscriber is to be told everything, a callback what it is subscribed to. -/
def Receiver.wants {E : Type*} [DecidableEq E] (r : Receiver E) (t : NotifyTask E) : Bool :=
  match r with
  | .subscriber _ => true
  | .callback _ topic => t.notification.topic = topic

namespace EventDispatcher

variable {E : Type*} [DecidableEq E]

/-- What happens: a call, or the next step of a thread. -/
inductive Action (E : Type*)
  /-- `PublishEvent`, `PublishData` or `PublishError`, and what the filters say of it. -/
  | publish (n : Notification E) (passes : Bool)
  | setAsyncDispatch (enable : Bool)
  | setMaxQueueSize (size : ℕ)
  | registerSubscriber (id : Bytes)
  | unregisterSubscriber (id : Bytes)
  | unregisterAllSubscribers
  | subscribe (topic : Topic E)
  /-- A thread goes on; `order` is that of the table of subscribers, if it reads it. -/
  | advance (i : ℕ) (order : List Bytes)
  deriving DecidableEq

variable (s : EventDispatcher E)

/-! ## The source -/

/-- `dispatchTask`: a full queue drops the task. -/
def dispatchTask (t : NotifyTask E) : EventDispatcher E :=
  if s.asyncDispatch then
    if 0 < s.maxQueueSize ∧ s.maxQueueSize ≤ s.taskQueue.length then s
    else { s with taskQueue := s.taskQueue ++ [t] }
  else { s with threads := s.threads.set 0 (.task t) }

/-- `applyFilters`, which only `PublishEvent` calls: whether a notification goes on. -/
def applyFilters (n : Notification E) (passes : Bool) : Bool :=
  match n with
  | .event _ => passes
  | _ => true

/-- `PublishEvent`, `PublishData` and `PublishError`. -/
def publish (n : Notification E) (passes : Bool) : EventDispatcher E :=
  if applyFilters n passes then
    let t : NotifyTask E := ⟨s.published.length, n⟩
    ({ s with published := s.published ++ [t] } : EventDispatcher E).dispatchTask t
  else s

/-- The table of subscribers with one more, or with another one under the id. -/
def registerSubscriber (id : Bytes) : EventDispatcher E :=
  { s with
    subscribers := if id ∈ s.subscribers then s.subscribers else s.subscribers ++ [id] }

/-- The callbacks that are subscribed to a topic. -/
def matching (topic : Topic E) : List ℕ :=
  (List.range s.callbacks.length).filter fun i => s.callbacks[i]? = some topic

/-- A thread has called a receiver. -/
def tell (i : ℕ) (thread : NotifyThread E) (r : Receiver E) (t : NotifyTask E) :
    EventDispatcher E :=
  { s with threads := s.threads.set i thread, log := s.log ++ [(r, t)] }

/-- The next step of `workerLoop`, or of the task that a thread is running. -/
def advance (i : ℕ) (order : List Bytes) : Option (EventDispatcher E) :=
  match s.threads[i]? with
  | none => none
  | some .idle =>
    -- the publishing thread takes nothing off the queue
    match i, s.taskQueue with
    | _ + 1, t :: queue =>
      some { s with taskQueue := queue, threads := s.threads.set i (.task t) }
    | _, _ => none
  | some (.task t) =>
    if order.Perm s.subscribers then
      some { s with threads := s.threads.set i (.subscribers t order) }
    else none
  | some (.subscribers t (id :: rest)) =>
    some (s.tell i (.subscribers t rest) (.subscriber id) t)
  | some (.subscribers t []) =>
    some { s with threads := s.threads.set i (.callbacks t (s.matching t.notification.topic)) }
  | some (.callbacks t (c :: rest)) =>
    some (s.tell i (.callbacks t rest) (.callback c t.notification.topic) t)
  | some (.callbacks _ []) => some { s with threads := s.threads.set i .idle }

/-- A call of the publishing thread, or a step of any thread. -/
def step (s : EventDispatcher E) : Action E → Option (EventDispatcher E × Unit)
  | .publish n passes =>
    if s.threads[0]? = some .idle then some (s.publish n passes, ()) else none
  | .setAsyncDispatch enable => some ({ s with asyncDispatch := enable }, ())
  | .setMaxQueueSize size => some ({ s with maxQueueSize := size }, ())
  | .registerSubscriber id => some (s.registerSubscriber id, ())
  | .unregisterSubscriber id => some ({ s with subscribers := s.subscribers.erase id }, ())
  | .unregisterAllSubscribers => some ({ s with subscribers := [] }, ())
  | .subscribe topic => some ({ s with callbacks := s.callbacks ++ [topic] }, ())
  | .advance i order => (s.advance i order).map fun s' => (s', ())

/-- The dispatcher and what happens to it. -/
def machine (E : Type*) [DecidableEq E] : Machine (EventDispatcher E) (Action E) Unit where
  step := step

/-! ## What a receiver gets -/

variable (r : Receiver E)

/-- The receiver can be called. -/
def Registered : Prop :=
  match r with
  | .subscriber id => id ∈ s.subscribers
  | .callback i topic => s.callbacks[i]? = some topic

instance : Decidable (s.Registered r) := by
  unfold Registered
  cases r <;> infer_instance

/-- What a receiver has been told, in order. -/
def received : List (NotifyTask E) :=
  s.log.filterMap fun entry => if entry.1 = r then some entry.2 else none

/-- What it is to be told of all that has been published. -/
def wanted : List (NotifyTask E) := s.published.filter r.wants

/-- **The order of publication**: a receiver has been told the first ones of the notifications
that it is to be told. -/
def InOrder : Prop := s.received r <+: s.wanted r

instance : Decidable (s.InOrder r) := inferInstanceAs (Decidable (_ <+: _))

/-- The task that a thread has in its hands and of which it still has to tell the receiver. -/
def hand : NotifyThread E → Option (NotifyTask E)
  | .idle => none
  | .task t => if r.wants t then some t else none
  | .subscribers t rest =>
    match r with
    | .subscriber id => if id ∈ rest then some t else none
    | .callback _ _ => if r.wants t then some t else none
  | .callbacks t rest =>
    match r with
    | .subscriber _ => none
    | .callback i _ => if i ∈ rest ∧ r.wants t then some t else none

/-- The pool that the threads are, for one receiver. -/
def pool : WorkPool (NotifyTask E) := ⟨s.taskQueue.filter r.wants, s.threads.map (hand r)⟩

/-- What the receiver is still to be told. -/
def pending : List (NotifyTask E) := (s.pool r).outstanding

/-- What a step tells the receiver. -/
def told : Action E → Option (NotifyTask E)
  | .advance i _ =>
    match s.threads[i]? with
    | some (.subscribers t (id :: _)) => if .subscriber id = r then some t else none
    | some (.callbacks t (c :: _)) =>
      if .callback c t.notification.topic = r then some t else none
    | _ => none
  | _ => none

/-- **In its turn**: when the receiver is told of a notification, there is no earlier one in the
queue or in the hands of a thread that it still has to be told of. -/
def InTurn (s : EventDispatcher E) (a : Action E) : Prop :=
  ∀ t ∈ s.told r a, ∀ u ∈ s.pending r, t.number ≤ u.number

instance (a : Action E) : Decidable (InTurn r s a) :=
  inferInstanceAs (Decidable (∀ t ∈ s.told r a, ∀ u ∈ s.pending r, t.number ≤ u.number))

/-- The queue does not overflow, and the receiver stays registered. -/
def Undisturbed (s : EventDispatcher E) : Action E → Prop
  | .publish _ _ => s.asyncDispatch = true →
      ¬ (0 < s.maxQueueSize ∧ s.maxQueueSize ≤ s.taskQueue.length)
  | .unregisterSubscriber id => r ≠ .subscriber id
  | .unregisterAllSubscribers =>
    match r with
    | .subscriber _ => False
    | .callback _ _ => True
  | _ => True

instance : ∀ a : Action E, Decidable (Undisturbed r s a)
  | .publish _ _ => inferInstanceAs (Decidable (_ → ¬ _))
  | .unregisterSubscriber _ => inferInstanceAs (Decidable (_ ≠ _))
  | .unregisterAllSubscribers =>
    match r with
    | .subscriber _ => .isFalse id
    | .callback _ _ => .isTrue trivial
  | .setAsyncDispatch _ | .setMaxQueueSize _ | .registerSubscriber _ | .subscribe _
  | .advance _ _ => .isTrue trivial

/-- A dispatcher before anything is published: the threads are idle. -/
structure AtRest : Prop where
  taskQueue : s.taskQueue = []
  published : s.published = []
  log : s.log = []
  threads : ∀ thread ∈ s.threads, thread = .idle
  subscribers : s.subscribers.Nodup

/-! ## The invariant -/

/-- A thread has each of those whom it still has to call once, and no callback that is not
subscribed to its topic. -/
def Proper (callbacks : List (Topic E)) : NotifyThread E → Prop
  | .subscribers _ rest => rest.Nodup
  | .callbacks t rest => rest.Nodup ∧ ∀ i ∈ rest, callbacks[i]? = some t.notification.topic
  | _ => True

/-- **The account of a receiver**: what it has been told and what it is still to be told is what
has been published for it, and it is registered. -/
structure Account : Prop where
  registered : s.Registered r
  subscribers : s.subscribers.Nodup
  threads : ∀ thread ∈ s.threads, Proper s.callbacks thread
  numbers : s.published.map NotifyTask.number = List.range s.published.length
  perm : (s.received r ++ s.pending r).Perm (s.wanted r)

variable {s r}

theorem AtRest.account (h : s.AtRest) (hr : s.Registered r) : Account s r := by
  refine ⟨hr, h.subscribers, ?_, ?_, ?_⟩
  · intro thread hthread
    rw [h.threads thread hthread]
    trivial
  · rw [h.published]
    rfl
  · have hhands : (s.threads.map (hand r)).reduceOption = [] := by
      have hidle : s.threads.map (hand r) = List.replicate s.threads.length none := by
        rw [← List.map_const']
        refine List.map_congr_left fun thread hthread => ?_
        rw [h.threads thread hthread]
        rfl
      rw [hidle, List.reduceOption_replicate_none]
    have hpending : s.pending r = [] := by
      show (s.threads.map (hand r)).reduceOption ++ s.taskQueue.filter r.wants = []
      rw [hhands, h.taskQueue]
      rfl
    rw [hpending, received, wanted, h.log, h.published]
    exact List.Perm.refl _

/-- What a receiver wants comes in the order of the numbers. -/
theorem Account.sorted (h : Account s r) :
    (s.wanted r).Pairwise fun t u => t.number < u.number := by
  have hnum : (s.published.map NotifyTask.number).Pairwise (· < ·) := by
    rw [h.numbers]
    exact List.pairwise_lt_range
  exact (List.pairwise_map.mp hnum).sublist List.filter_sublist

/-! ## One step -/

/-- A step that changes one thread, and what is in its hands. -/
theorem perm_set {threads : List (NotifyThread E)} {i : ℕ} {thread thread' : NotifyThread E}
    (hi : threads[i]? = some thread) {gone : List (NotifyTask E)}
    (hhand : (hand r thread).toList = gone ++ (hand r thread').toList) :
    (gone ++ ((threads.set i thread').map (hand r)).reduceOption).Perm
      (threads.map (hand r)).reduceOption := by
  have hget : (threads.map (hand r))[i]? = some (hand r thread) := by
    rw [List.getElem?_map, hi, Option.map_some]
  have hset := WorkPool.reduceOption_set hget (hand r thread')
  rw [← List.map_set, hhand, List.append_assoc] at hset
  refine (List.perm_append_left_iff (hand r thread').toList).mp (List.Perm.trans ?_ hset)
  exact List.perm_append_comm_assoc _ _ _

/-- The hands before and after the snapshot of the subscribers: whoever is registered is in it. -/
theorem hand_snapshot (hr : s.Registered r) {order : List Bytes} (horder : order.Perm s.subscribers)
    (t : NotifyTask E) : hand r (.subscribers t order) = hand r (.task t) := by
  cases r with
  | subscriber id =>
    have hmem : id ∈ order := horder.mem_iff.mpr hr
    simp only [hand, Receiver.wants, if_pos hmem, if_true]
  | callback i topic => rfl

/-- A subscriber that is called is not called again. -/
theorem hand_subscriber {t : NotifyTask E} {id : Bytes} {rest : List Bytes}
    (hnodup : (id :: rest).Nodup) :
    (hand r (.subscribers t (id :: rest))).toList
      = (if .subscriber id = r then some t else none : Option (NotifyTask E)).toList
        ++ (hand r (.subscribers t rest)).toList := by
  cases r with
  | subscriber id' =>
    by_cases hid : id = id'
    · subst hid
      have hout : id ∉ rest := (List.nodup_cons.mp hnodup).1
      rw [if_pos rfl]
      simp only [hand, List.mem_cons_self, if_true, if_neg hout, Option.toList_some,
        Option.toList_none, List.append_nil]
    · have hne : ¬ (Receiver.subscriber id : Receiver E) = .subscriber id' :=
        fun he => hid (Receiver.subscriber.inj he)
      have hmem : id' ∈ id :: rest ↔ id' ∈ rest := by
        rw [List.mem_cons]
        exact or_iff_right (Ne.symm hid)
      rw [if_neg hne]
      simp only [hand, hmem, Option.toList_none, List.nil_append]
  | callback i topic =>
    rw [if_neg nofun]
    rfl

/-- The hands before and after the snapshot of the callbacks. -/
theorem hand_matching (hr : s.Registered r) (t : NotifyTask E) :
    hand r (.callbacks t (s.matching t.notification.topic)) = hand r (.subscribers t []) := by
  cases r with
  | subscriber id => simp only [hand, List.not_mem_nil, if_false]
  | callback i topic =>
    have hr : s.callbacks[i]? = some topic := hr
    have hlt : i < s.callbacks.length := (List.getElem?_eq_some_iff.mp hr).1
    have hmem : i ∈ s.matching t.notification.topic ↔ t.notification.topic = topic := by
      simp only [matching, List.mem_filter, List.mem_range, hlt, hr, true_and, decide_eq_true_eq,
        Option.some.injEq]
      exact eq_comm
    have hwants : (Receiver.callback i topic).wants t = true ↔ t.notification.topic = topic :=
      decide_eq_true_iff
    simp only [hand, hmem, hwants, and_self]

/-- A callback that is called is not called again. -/
theorem hand_callback (hr : s.Registered r) {t : NotifyTask E} {c : ℕ} {rest : List ℕ}
    (hproper : Proper s.callbacks (.callbacks t (c :: rest))) :
    (hand r (.callbacks t (c :: rest))).toList
      = (if .callback c t.notification.topic = r then some t else none
          : Option (NotifyTask E)).toList
        ++ (hand r (.callbacks t rest)).toList := by
  obtain ⟨hnodup, htopic⟩ := hproper
  cases r with
  | subscriber id =>
    rw [if_neg nofun]
    rfl
  | callback i topic =>
    by_cases hi : c = i
    · subst hi
      have hout : c ∉ rest := (List.nodup_cons.mp hnodup).1
      have hself : t.notification.topic = topic := by
        have hc := htopic c List.mem_cons_self
        exact Option.some.inj (hc.symm.trans hr)
      have hwants : (Receiver.callback c topic).wants t = true := decide_eq_true hself
      rw [hself, if_pos rfl]
      simp only [hand, List.mem_cons_self, hwants, and_self, if_true, hout, false_and, if_false,
        Option.toList_some, Option.toList_none, List.append_nil]
    · have hne : ¬ Receiver.callback c t.notification.topic = .callback i topic :=
        fun he => hi (Receiver.callback.inj he).1
      have hmem : i ∈ c :: rest ↔ i ∈ rest := by
        rw [List.mem_cons]
        exact or_iff_right (Ne.symm hi)
      rw [if_neg hne]
      simp only [hand, hmem, Option.toList_none, List.nil_append]

/-- What is told is in the list of what has been told. -/
theorem received_tell (i : ℕ) (thread : NotifyThread E) (r' : Receiver E) (t : NotifyTask E) :
    (s.tell i thread r' t).received r
      = s.received r ++ (if r' = r then some t else none : Option (NotifyTask E)).toList := by
  show (s.log ++ [(r', t)]).filterMap _ = _
  rw [List.filterMap_append]
  unfold received
  by_cases hr : r' = r
  · simp [hr]
  · simp [hr]

/-- The callbacks that match a topic are in order, each of them once. -/
theorem proper_matching (t : NotifyTask E) :
    Proper s.callbacks (.callbacks t (s.matching t.notification.topic)) := by
  refine ⟨List.nodup_range.filter _, fun i hi => ?_⟩
  exact of_decide_eq_true (List.mem_filter.mp hi).2

/-- What a step of a thread does for a receiver: it is told what the step tells it, and that is
what it no longer is to be told. -/
structure Advanced (r : Receiver E) (s s' : EventDispatcher E) (told : Option (NotifyTask E)) :
    Prop where
  received : s'.received r = s.received r ++ told.toList
  pending : (told.toList ++ s'.pending r).Perm (s.pending r)
  published : s'.published = s.published
  subscribers : s'.subscribers = s.subscribers
  callbacks : s'.callbacks = s.callbacks
  threads : ∀ thread ∈ s'.threads, Proper s'.callbacks thread

/-- A step on which a thread that runs a task goes on. -/
theorem Account.advanced (h : Account s r) {s' : EventDispatcher E} {i : ℕ}
    {thread thread' : NotifyThread E} (hi : s.threads[i]? = some thread)
    {told : Option (NotifyTask E)} (hthreads : s'.threads = s.threads.set i thread')
    (hsame : s'.taskQueue = s.taskQueue ∧ s'.published = s.published
      ∧ s'.subscribers = s.subscribers ∧ s'.callbacks = s.callbacks)
    (hreceived : s'.received r = s.received r ++ told.toList)
    (hhand : (hand r thread).toList = told.toList ++ (hand r thread').toList)
    (hproper : Proper s.callbacks thread') : Advanced r s s' told := by
  obtain ⟨hqueue, hpublished, hsubscribers, hcallbacks⟩ := hsame
  refine ⟨hreceived, ?_, hpublished, hsubscribers, hcallbacks, ?_⟩
  · show (told.toList ++ ((s'.threads.map (hand r)).reduceOption
      ++ s'.taskQueue.filter r.wants)).Perm
      ((s.threads.map (hand r)).reduceOption ++ s.taskQueue.filter r.wants)
    rw [hthreads, hqueue, ← List.append_assoc]
    exact (perm_set hi hhand).append_right _
  · rw [hthreads, hcallbacks]
    exact Threads.forall_mem_set h.threads hproper i

/-- A thread without a task takes one into its hands. -/
theorem perm_take {threads : List (NotifyThread E)} {i : ℕ} (hi : threads[i]? = some .idle)
    (t : NotifyTask E) :
    ((threads.set i (.task t)).map (hand r)).reduceOption.Perm
      ([t].filter r.wants ++ (threads.map (hand r)).reduceOption) := by
  have hget : (threads.map (hand r))[i]? = some none := by
    rw [List.getElem?_map, hi]
    rfl
  have hfilter : [t].filter r.wants = (hand r (.task t)).toList := by
    rw [List.filter_cons, hand]
    split_ifs <;> rfl
  rw [hfilter, List.map_set]
  exact WorkPool.reduceOption_set hget (hand r (.task t))

/-- The task goes from the queue into the hands of the thread. -/
theorem pending_take {i : ℕ} (hi : s.threads[i]? = some .idle) {t : NotifyTask E}
    {queue : List (NotifyTask E)} (hqueue : s.taskQueue = t :: queue) :
    ((none : Option (NotifyTask E)).toList
      ++ { s with taskQueue := queue, threads := s.threads.set i (.task t) }.pending r).Perm
        (s.pending r) := by
  show ([] ++ (((s.threads.set i (.task t)).map (hand r)).reduceOption
    ++ queue.filter r.wants)).Perm
    ((s.threads.map (hand r)).reduceOption ++ s.taskQueue.filter r.wants)
  have hfilter : (t :: queue).filter r.wants = [t].filter r.wants ++ queue.filter r.wants :=
    List.filter_append [t] queue
  rw [hqueue, hfilter, List.nil_append]
  refine ((perm_take hi t).append_right _).trans ?_
  rw [List.append_assoc]
  exact List.perm_append_comm_assoc _ _ _

/-- **What a step of a thread does.** -/
theorem Account.advance (h : Account s r) {s' : EventDispatcher E} {i : ℕ} {order : List Bytes}
    (hs : s.advance i order = some s') :
    Advanced r s s' (s.told r (.advance i order)) := by
  have hnil : ∀ {t : EventDispatcher E}, t.log = s.log →
      t.received r = s.received r ++ (none : Option (NotifyTask E)).toList := by
    intro t ht
    rw [received, ht]
    exact (List.append_nil _).symm
  cases hi : s.threads[i]? with
  | none =>
    simp only [EventDispatcher.advance, hi] at hs
    cases hs
  | some thread =>
    have hmem : thread ∈ s.threads := List.mem_of_getElem? hi
    have hproper := h.threads thread hmem
    simp only [EventDispatcher.advance, told, hi] at hs ⊢
    cases thread with
    | idle =>
      cases i with
      | zero => cases hs
      | succ i =>
        cases hqueue : s.taskQueue with
        | nil =>
          simp only [hqueue] at hs
          cases hs
        | cons t queue =>
          simp only [hqueue] at hs
          cases hs
          have htask : Proper s.callbacks (.task t) := trivial
          have hthreads := Threads.forall_mem_set h.threads htask (i + 1)
          exact ⟨hnil rfl, pending_take hi hqueue, rfl, rfl, rfl, hthreads⟩
    | task t =>
      dsimp only at hs
      by_cases horder : order.Perm s.subscribers
      · rw [if_pos horder] at hs
        cases hs
        refine h.advanced hi rfl ⟨rfl, rfl, rfl, rfl⟩ (hnil rfl) ?_ ?_
        · rw [hand_snapshot h.registered horder]
          rfl
        · exact horder.nodup_iff.mpr h.subscribers
      · rw [if_neg horder] at hs
        cases hs
    | subscribers t rest =>
      cases rest with
      | nil =>
        cases hs
        refine h.advanced hi rfl ⟨rfl, rfl, rfl, rfl⟩ (hnil rfl) ?_ (proper_matching t)
        rw [hand_matching h.registered]
        rfl
      | cons id rest =>
        cases hs
        have hnodup : (id :: rest).Nodup := hproper
        exact h.advanced hi rfl ⟨rfl, rfl, rfl, rfl⟩ (received_tell _ _ _ _)
          (hand_subscriber hnodup) (List.nodup_cons.mp hnodup).2
    | callbacks t rest =>
      cases rest with
      | nil =>
        cases hs
        refine h.advanced hi rfl ⟨rfl, rfl, rfl, rfl⟩ (hnil rfl) ?_ trivial
        cases r with
        | subscriber id => rfl
        | callback c topic =>
          simp only [hand, List.not_mem_nil, false_and, if_false]
          rfl
      | cons c rest =>
        cases hs
        refine h.advanced hi rfl ⟨rfl, rfl, rfl, rfl⟩ (received_tell _ _ _ _)
          (hand_callback h.registered hproper) ⟨(List.nodup_cons.mp hproper.1).2, ?_⟩
        exact fun j hj => hproper.2 j (List.mem_cons_of_mem c hj)

/-- A step of a thread keeps the account. -/
theorem Advanced.account {s' : EventDispatcher E} {told : Option (NotifyTask E)}
    (h : Advanced r s s' told) (hs : Account s r) : Account s' r := by
  refine ⟨?_, h.subscribers ▸ hs.subscribers, h.threads, ?_, ?_⟩
  · have hr := hs.registered
    unfold Registered at hr ⊢
    rw [h.subscribers, h.callbacks]
    exact hr
  · rw [h.published]
    exact hs.numbers
  · rw [h.received, wanted, h.published, List.append_assoc]
    exact (h.pending.append_left _).trans hs.perm

/-- What changes neither the tasks nor the threads keeps the account, if the receiver stays
registered. -/
theorem Account.quiet {s' : EventDispatcher E} (h : Account s r)
    (hsame : s'.taskQueue = s.taskQueue ∧ s'.threads = s.threads ∧ s'.published = s.published
      ∧ s'.log = s.log)
    (hr : s'.Registered r) (hsubscribers : s'.subscribers.Nodup)
    (hthreads : ∀ thread ∈ s.threads, Proper s'.callbacks thread) : Account s' r := by
  obtain ⟨hqueue, hth, hpublished, hlog⟩ := hsame
  refine ⟨hr, hsubscribers, hth ▸ hthreads, ?_, ?_⟩
  · rw [hpublished]
    exact h.numbers
  · have hpending : s'.pending r = s.pending r := by
      rw [pending, pool, hqueue, hth]
      rfl
    have hreceived : s'.received r = s.received r := by rw [received, hlog]; rfl
    rw [hpending, hreceived, wanted, hpublished]
    exact h.perm

omit [DecidableEq E] in
theorem registered_registerSubscriber (h : s.Registered r) (id : Bytes) :
    (s.registerSubscriber id).Registered r := by
  cases r with
  | subscriber id' =>
    have hmem : id' ∈ s.subscribers := h
    show id' ∈ if id ∈ s.subscribers then s.subscribers else s.subscribers ++ [id]
    split_ifs
    · exact hmem
    · exact List.mem_append_left _ hmem
  | callback i topic => exact h

omit [DecidableEq E] in
theorem registered_unregisterSubscriber (h : s.Registered r) {id : Bytes}
    (hne : r ≠ .subscriber id) :
    ({ s with subscribers := s.subscribers.erase id } : EventDispatcher E).Registered r := by
  cases r with
  | subscriber id' =>
    have hne : id' ≠ id := fun he => hne (congrArg Receiver.subscriber he)
    exact (List.mem_erase_of_ne hne).mpr h
  | callback i topic => exact h

omit [DecidableEq E] in
theorem registered_unregisterAllSubscribers (h : s.Registered r)
    (hne : ∀ id, r ≠ .subscriber id) :
    ({ s with subscribers := [] } : EventDispatcher E).Registered r := by
  cases r with
  | subscriber id => exact absurd rfl (hne id)
  | callback i topic => exact h

omit [DecidableEq E] in
theorem registered_subscribe (h : s.Registered r) (topic : Topic E) :
    ({ s with callbacks := s.callbacks ++ [topic] } : EventDispatcher E).Registered r := by
  cases r with
  | subscriber id => exact h
  | callback i topic' =>
    have hget : s.callbacks[i]? = some topic' := h
    exact (List.getElem?_append_left (List.getElem?_eq_some_iff.mp hget).1).trans hget

omit [DecidableEq E] in
theorem nodup_registerSubscriber (h : s.subscribers.Nodup) (id : Bytes) :
    (s.registerSubscriber id).subscribers.Nodup := by
  show (if id ∈ s.subscribers then s.subscribers else s.subscribers ++ [id]).Nodup
  split_ifs with hid
  · exact h
  · exact (List.perm_append_singleton id s.subscribers).nodup_iff.mpr
      (List.nodup_cons.mpr ⟨hid, h⟩)

omit [DecidableEq E] in
/-- More callbacks are no harm. -/
theorem proper_append {callbacks : List (Topic E)} {thread : NotifyThread E}
    (h : Proper callbacks thread) (topic : Topic E) : Proper (callbacks ++ [topic]) thread := by
  cases thread with
  | callbacks t rest =>
    refine ⟨h.1, fun i hi => ?_⟩
    have hsome := h.2 i hi
    rw [List.getElem?_append_left (List.getElem?_eq_some_iff.mp hsome).1]
    exact hsome
  | _ => exact h

/-- **What publishing does**: the notification is one more that is to be told. -/
theorem Account.publish (h : Account s r) (n : Notification E) (passes : Bool)
    (hidle : s.threads[0]? = some .idle)
    (hroom : s.asyncDispatch = true →
      ¬ (0 < s.maxQueueSize ∧ s.maxQueueSize ≤ s.taskQueue.length)) :
    Account (s.publish n passes) r ∧ (s.publish n passes).received r = s.received r
      ∧ s.wanted r <+: (s.publish n passes).wanted r := by
  unfold EventDispatcher.publish
  by_cases hpass : applyFilters n passes = true
  · rw [if_pos hpass]
    set t : NotifyTask E := ⟨s.published.length, n⟩
    have hnumbers : (s.published ++ [t]).map NotifyTask.number
        = List.range (s.published ++ [t]).length := by
      rw [List.map_append, h.numbers, List.length_append, List.length_singleton,
        List.range_succ]
      rfl
    have hwanted : (s.published ++ [t]).filter r.wants
        = s.wanted r ++ [t].filter r.wants := List.filter_append ..
    -- the account of one more task
    have hmore : ∀ pending', (([t].filter r.wants) ++ s.pending r).Perm pending' →
        (s.received r ++ pending').Perm (s.wanted r ++ [t].filter r.wants) := by
      intro pending' hperm
      refine (hperm.symm.append_left _).trans ?_
      refine (List.perm_append_comm_assoc _ _ _).trans ?_
      exact (h.perm.append_left _).trans List.perm_append_comm
    dsimp only
    unfold dispatchTask
    dsimp only
    by_cases hasync : s.asyncDispatch = true
    · rw [if_pos hasync, if_neg (hroom hasync)]
      refine ⟨⟨h.registered, h.subscribers, h.threads, hnumbers, ?_⟩, rfl, ?_⟩
      · refine List.Perm.trans (hmore _ ?_) (List.Perm.of_eq hwanted.symm)
        show ([t].filter r.wants ++ ((s.threads.map (hand r)).reduceOption
          ++ s.taskQueue.filter r.wants)).Perm
          ((s.threads.map (hand r)).reduceOption ++ (s.taskQueue ++ [t]).filter r.wants)
        rw [List.filter_append, ← List.append_assoc (s.threads.map (hand r)).reduceOption]
        exact List.perm_append_comm
      · exact ⟨_, hwanted.symm⟩
    · rw [if_neg hasync]
      have htask : Proper s.callbacks (.task t) := trivial
      have hthreads := Threads.forall_mem_set h.threads htask 0
      refine ⟨⟨h.registered, h.subscribers, hthreads, hnumbers, ?_⟩, rfl, ?_⟩
      · refine List.Perm.trans (hmore _ ?_) (List.Perm.of_eq hwanted.symm)
        show ([t].filter r.wants ++ ((s.threads.map (hand r)).reduceOption
          ++ s.taskQueue.filter r.wants)).Perm
          (((s.threads.set 0 (.task t)).map (hand r)).reduceOption
            ++ s.taskQueue.filter r.wants)
        rw [← List.append_assoc]
        exact (perm_take hidle t).symm.append_right _
      · exact ⟨_, hwanted.symm⟩
  · rw [if_neg hpass]
    exact ⟨h, rfl, List.prefix_rfl⟩

/-- **What a step does to the account of a receiver.** -/
theorem Account.step (h : Account s r) {a : Action E} (hd : Undisturbed r s a)
    {x : EventDispatcher E × Unit} (hs : step s a = some x) :
    Account x.1 r ∧ x.1.received r = s.received r ++ (s.told r a).toList
      ∧ s.wanted r <+: x.1.wanted r
      ∧ (∀ t ∈ s.told r a, t ∈ s.pending r ∧ x.1.wanted r = s.wanted r) := by
  have hnone : ∀ {t : EventDispatcher E}, Account t r → t.received r = s.received r →
      s.wanted r <+: t.wanted r → s.told r a = none →
      Account t r ∧ t.received r = s.received r ++ (s.told r a).toList
        ∧ s.wanted r <+: t.wanted r
        ∧ (∀ t' ∈ s.told r a, t' ∈ s.pending r ∧ t.wanted r = s.wanted r) := by
    intro t ht hreceived hwanted htold
    rw [htold]
    exact ⟨ht, hreceived.trans (List.append_nil _).symm, hwanted, nofun⟩
  cases a with
  | publish n passes =>
    by_cases hidle : s.threads[0]? = some .idle
    · simp only [EventDispatcher.step, if_pos hidle, Option.some.injEq] at hs
      subst hs
      obtain ⟨hacc, hreceived, hwanted⟩ := h.publish n passes hidle hd
      exact hnone hacc hreceived hwanted rfl
    · simp only [EventDispatcher.step, if_neg hidle] at hs
      cases hs
  | setAsyncDispatch enable | setMaxQueueSize size =>
    cases hs
    exact hnone (h.quiet ⟨rfl, rfl, rfl, rfl⟩ h.registered h.subscribers h.threads) rfl
      List.prefix_rfl rfl
  | registerSubscriber id =>
    cases hs
    exact hnone (h.quiet ⟨rfl, rfl, rfl, rfl⟩ (registered_registerSubscriber h.registered id)
      (nodup_registerSubscriber h.subscribers id) h.threads) rfl List.prefix_rfl rfl
  | unregisterSubscriber id =>
    cases hs
    exact hnone (h.quiet ⟨rfl, rfl, rfl, rfl⟩ (registered_unregisterSubscriber h.registered hd)
      (h.subscribers.erase id) h.threads) rfl List.prefix_rfl rfl
  | unregisterAllSubscribers =>
    cases hs
    have hne : ∀ id, r ≠ .subscriber id := by
      rintro id rfl
      exact hd
    exact hnone (h.quiet ⟨rfl, rfl, rfl, rfl⟩ (registered_unregisterAllSubscribers h.registered hne)
      List.nodup_nil h.threads) rfl List.prefix_rfl rfl
  | subscribe topic =>
    cases hs
    exact hnone (h.quiet ⟨rfl, rfl, rfl, rfl⟩ (registered_subscribe h.registered topic)
      h.subscribers fun thread hth => proper_append (h.threads thread hth) topic) rfl
      List.prefix_rfl rfl
  | advance i order =>
    obtain ⟨s', hs', rfl⟩ := Option.map_eq_some_iff.mp hs
    have hadv := h.advance hs'
    have hwanted : s'.wanted r = s.wanted r := by rw [wanted, hadv.published]; rfl
    refine ⟨hadv.account h, hadv.received, hwanted ▸ List.prefix_rfl, fun t ht => ⟨?_, hwanted⟩⟩
    refine hadv.pending.mem_iff.mp (List.mem_append_left _ ?_)
    exact Option.mem_toList.mpr ht

/-! ## Whole runs -/

/-- **When a step keeps the order of publication**: when it is taken in turn. -/
theorem Account.inOrder_step_iff (h : Account s r) (hin : s.InOrder r) {a : Action E}
    (hd : Undisturbed r s a) {x : EventDispatcher E × Unit}
    (hs : EventDispatcher.step s a = some x) :
    x.1.InOrder r ↔ InTurn r s a := by
  obtain ⟨-, hreceived, hwanted, hpending⟩ := h.step hd hs
  unfold InOrder InTurn
  rw [hreceived]
  cases htold : s.told r a with
  | none =>
    rw [Option.toList_none, List.append_nil]
    exact iff_of_true (hin.trans hwanted) nofun
  | some t =>
    obtain ⟨hmem, hsame⟩ := hpending t htold
    rw [hsame, Option.toList_some]
    simp only [Option.mem_def, Option.some.injEq, forall_eq']
    exact WorkPool.append_singleton_prefix_iff h.sorted hin h.perm hmem

/-- **Notifications arrive in the order in which they are published** exactly if each is told in
its turn, while no thread still has an earlier one for the receiver in its hands and none is in
the queue: for every receiver that stays registered, every sequence of calls on a dispatcher whose
queue does not overflow, with any number of workers in any interleaving. -/
theorem notifications_in_order_iff {s : EventDispatcher E} (hs : s.AtRest) {r : Receiver E}
    (hr : s.Registered r) {as : List (Action E)} (hd : (machine E).Along (Undisturbed r) s as) :
    (machine E).Always (fun s => s.InOrder r) s as ↔ (machine E).Along (InTurn r) s as := by
  refine Machine.always_iff_along_of (I := fun s => Account s r ∧ s.InOrder r)
    (fun s h => h.2) ?_ ?_ ⟨hs.account hr, ?_⟩ hd
  · intro s a x hI hda hturn hstep
    exact ⟨(hI.1.step hda hstep).1, (hI.1.inOrder_step_iff hI.2 hda hstep).mpr hturn⟩
  · intro s a x hI hda hturn hstep hin
    exact hturn ((hI.1.inOrder_step_iff hI.2 hda hstep).mp hin)
  · rw [InOrder, received, hs.log]
    exact List.nil_prefix

/-! ## Without asynchronous dispatch -/

/-- The publishing thread does everything itself. -/
structure Synchronous (s : EventDispatcher E) : Prop where
  asyncDispatch : s.asyncDispatch = false
  taskQueue : s.taskQueue = []
  workers : ∀ i, ∀ thread ∈ s.threads[i + 1]?, thread = .idle

/-- Only the first thread has anything in its hands. -/
theorem Synchronous.pending_eq (h : Synchronous s) {thread : NotifyThread E}
    (h0 : s.threads[0]? = some thread) : s.pending r = (hand r thread).toList := by
  obtain ⟨-, hqueue, hworkers⟩ := h
  cases hthreads : s.threads with
  | nil =>
    rw [hthreads] at h0
    cases h0
  | cons first workers =>
    rw [hthreads] at h0 hworkers
    cases h0
    have hidle : workers.map (hand r) = List.replicate workers.length none := by
      rw [← List.map_const']
      refine List.map_congr_left fun worker hworker => ?_
      obtain ⟨i, hi⟩ := List.mem_iff_getElem?.mp hworker
      rw [hworkers i worker hi]
      rfl
    show (s.threads.map (hand r)).reduceOption ++ s.taskQueue.filter r.wants = _
    rw [hthreads, hqueue, List.map_cons, hidle, WorkPool.reduceOption_cons,
      List.reduceOption_replicate_none, List.append_nil, List.filter_nil, List.append_nil]

/-- What is told is told in turn. -/
theorem Synchronous.inTurn (h : Synchronous s) (hacc : Account s r) (a : Action E)
    {x : EventDispatcher E × Unit} (hs : step s a = some x) (hd : Undisturbed r s a) :
    InTurn r s a := by
  intro t ht u hu
  have hmem := ((hacc.step hd hs).2.2.2 t ht).1
  cases h0 : s.threads[0]? with
  | none =>
    have hnil : s.threads = [] := by
      rw [List.getElem?_eq_none_iff, Nat.le_zero, List.length_eq_zero_iff] at h0
      exact h0
    have hpending : s.pending r = [] := by
      show (s.threads.map (hand r)).reduceOption ++ s.taskQueue.filter r.wants = []
      rw [hnil, h.taskQueue]
      rfl
    rw [hpending] at hu
    cases hu
  | some thread =>
    rw [h.pending_eq h0, Option.mem_toList] at hmem hu
    have he : t = u := Option.some.inj (hmem.symm.trans hu)
    exact he ▸ Nat.le_refl _

omit [DecidableEq E] in
/-- A step of the first thread leaves the workers alone. -/
theorem Synchronous.set (h : Synchronous s) (thread : NotifyThread E) (i : ℕ) :
    ∀ other ∈ (s.threads.set 0 thread)[i + 1]?, other = .idle := by
  rw [List.getElem?_set_ne (Nat.succ_ne_zero i).symm]
  exact h.workers i

/-- The workers stay idle. -/
theorem Synchronous.step (h : Synchronous s) {a : Action E} (ha : a ≠ .setAsyncDispatch true)
    {x : EventDispatcher E × Unit} (hs : EventDispatcher.step s a = some x) : Synchronous x.1 := by
  cases a with
  | publish n passes =>
    by_cases hidle : s.threads[0]? = some .idle
    · simp only [EventDispatcher.step, if_pos hidle, Option.some.injEq] at hs
      subst hs
      unfold EventDispatcher.publish
      split_ifs
      · have hsync : ¬ s.asyncDispatch = true := by rw [h.asyncDispatch]; exact Bool.false_ne_true
        unfold dispatchTask
        rw [if_neg hsync]
        exact ⟨h.asyncDispatch, h.taskQueue, h.set _⟩
      · exact h
    · simp only [EventDispatcher.step, if_neg hidle] at hs
      cases hs
  | setAsyncDispatch enable =>
    cases hs
    cases enable with
    | true => exact absurd rfl ha
    | false => exact ⟨rfl, h.taskQueue, h.workers⟩
  | setMaxQueueSize size | registerSubscriber id | unregisterSubscriber id
  | unregisterAllSubscribers | subscribe topic =>
    cases hs
    exact ⟨h.asyncDispatch, h.taskQueue, h.workers⟩
  | advance i order =>
    obtain ⟨s', hs', rfl⟩ := Option.map_eq_some_iff.mp hs
    unfold EventDispatcher.advance at hs'
    cases hi : s.threads[i]? with
    | none =>
      rw [hi] at hs'
      cases hs'
    | some thread =>
      rw [hi] at hs'
      cases i with
      | succ i =>
        -- a worker has nothing to take
        rw [h.workers i thread hi, h.taskQueue] at hs'
        cases hs'
      | zero =>
        cases thread with
        | idle => cases hs'
        | task t =>
          dsimp only at hs'
          by_cases horder : order.Perm s.subscribers
          · rw [if_pos horder] at hs'
            cases hs'
            exact ⟨h.asyncDispatch, h.taskQueue, h.set _⟩
          · rw [if_neg horder] at hs'
            cases hs'
        | subscribers t rest | callbacks t rest =>
          cases rest <;>
          · cases hs'
            exact ⟨h.asyncDispatch, h.taskQueue, h.set _⟩

/-- **Without asynchronous dispatch** notifications arrive in the order of publication. -/
theorem in_order_of_synchronous {s : EventDispatcher E} (hs : s.AtRest)
    (hsync : s.asyncDispatch = false) {r : Receiver E} (hr : s.Registered r)
    {as : List (Action E)} (hd : (machine E).Along (Undisturbed r) s as)
    (hstay : (machine E).Along (fun _ a => a ≠ .setAsyncDispatch true) s as) :
    (machine E).Always (fun s => s.InOrder r) s as := by
  rw [notifications_in_order_iff hs hr hd]
  have hidle : Synchronous s := by
    refine ⟨hsync, hs.taskQueue, fun i thread hthread => ?_⟩
    exact hs.threads thread (List.mem_of_getElem? hthread)
  have hboth : (machine E).Along (fun s a => Undisturbed r s a ∧ a ≠ .setAsyncDispatch true) s as :=
    hd.and hstay
  refine Machine.along_of_along (I := fun s => Account s r ∧ Synchronous s) ?_ ?_
    ⟨hs.account hr, hidle⟩ hboth
  · intro s a x hI hC hstep
    exact ⟨(hI.1.step hC.1 hstep).1, hI.2.step hC.2 hstep⟩
  · intro s a x hI hC hstep
    exact hI.2.inTurn hI.1 a hstep hC.1

/-! ## With workers -/

/-- A dispatcher with two workers, and one subscriber. -/
def twoWorkers : EventDispatcher ConnectionEvent :=
  { asyncDispatch := true, subscribers := [lit "log"], threads := [.idle, .idle, .idle] }

theorem twoWorkers_atRest : twoWorkers.AtRest where
  taskQueue := rfl
  published := rfl
  log := rfl
  threads := by decide
  subscribers := by decide

/-- `CONNECTED` and data are published, one worker takes the first task, another one the second
one, and goes first. -/
def overtaking : List (Action ConnectionEvent) :=
  [.publish (.event .connected) true, .publish (.data (lit "x")) true, .advance 1 [],
    .advance 2 [], .advance 2 [lit "log"], .advance 2 []]

/-- **A notification overtakes another one**: the subscriber is told of the data before it is told
that the connection is there. -/
theorem notifications_overtaken :
    (machine ConnectionEvent).Along (Undisturbed (.subscriber (lit "log"))) twoWorkers overtaking
      ∧ ¬ (machine ConnectionEvent).Always (fun s => s.InOrder (.subscriber (lit "log")))
        twoWorkers overtaking := by
  decide

/-- The same notifications, told in turn. -/
def taking : List (Action ConnectionEvent) :=
  [.publish (.event .connected) true, .publish (.data (lit "x")) true, .advance 1 [],
    .advance 2 [], .advance 1 [lit "log"], .advance 1 [], .advance 2 [lit "log"], .advance 2 []]

theorem notifications_in_order_taking :
    (machine ConnectionEvent).Always (fun s => s.InOrder (.subscriber (lit "log"))) twoWorkers
        taking
      ↔ (machine ConnectionEvent).Along (InTurn (.subscriber (lit "log"))) twoWorkers taking :=
  notifications_in_order_iff twoWorkers_atRest (by decide) (by decide)

end EventDispatcher
