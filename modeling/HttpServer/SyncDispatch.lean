import HttpServer.Cpp
import HttpServer.Machine
import Mathlib.Data.List.AList
import Mathlib.Data.List.ReduceOption

/-!
# Synchronous dispatch

`DefaultEventDispatcher` of `core/Event/event_dispatcher.cpp` without asynchronous dispatch: its
five registries – the table of subscribers, the callbacks for events, for data and for errors,
and the filters – and what a publication makes of them. Each call runs its task itself, so that
a call is a step, and what it comes to is the list of those it notifies. The subscribers are
notified in the order of an `unordered_map`, which is any.

What is to happen is said without the registries, from the calls that have been made: who is
registered under an id is the one of the latest registration behind which the id was not
removed (`registered`), and a callback is subscribed if somebody has subscribed it
(`subscribed`). `dispatch_exact` says that in every run each call notifies those and no others.
-/

/-- What is published, with the connection that it is about. -/
inductive Publication (E C : Type*)
  | event (event : E) (conn : C)
  | data (conn : C) (data : Bytes)
  | error (conn : C) (ec : ℤ)
  deriving DecidableEq

/-- Who is notified of what: a subscriber, with the id it is registered under, or a callback. -/
inductive Notified (E C O K : Type*)
  | subscriber (id : Bytes) (object : O) (publication : Publication E C)
  | callback (callback : K) (publication : Publication E C)
  deriving DecidableEq

/-- `DispatchStats`; an event that `event_counts` does not have counts zero. -/
structure DispatchStats (E : Type*) where
  totalEvents : ℕ := 0
  totalData : ℕ := 0
  totalErrors : ℕ := 0
  activeSubscribers : ℕ := 0
  eventCounts : E → ℕ := fun _ => 0

/-- `DefaultEventDispatcher` for events `E`, connections `C`, subscribers `O` and callbacks `K`.
A callback or filter may be an empty `std::function`. -/
structure DefaultEventDispatcher (E C O K : Type*) where
  totalEvents : ℕ := 0
  totalData : ℕ := 0
  totalErrors : ℕ := 0
  activeSubscribers : ℕ := 0
  stats : DispatchStats E := {}
  subscribers : AList fun _ : Bytes => O := ∅
  typedCallbacks : List (E × Option K) := []
  dataCallbacks : List (Option K) := []
  errorCallbacks : List (Option K) := []
  filters : List (Option (E → C → Bool)) := []

namespace DefaultEventDispatcher

variable {E C O K : Type*} [DecidableEq E]

/-! ## The source -/

section Source

variable (s : DefaultEventDispatcher E C O K)

/-- `applyFilters`; the filters are pure. -/
def applyFilters (event : E) (conn : C) : Bool :=
  s.filters.all fun filter => filter.elim true fun f => f event conn

/-- The counters are copied. -/
def copyCounters : DefaultEventDispatcher E C O K :=
  { s with stats := { s.stats with
      totalEvents := s.totalEvents
      totalData := s.totalData
      totalErrors := s.totalErrors
      activeSubscribers := s.activeSubscribers } }

/-- `notifySubscribers`, with the order in which the table is read. -/
def notifySubscribers (order : List (Σ _ : Bytes, O)) (p : Publication E C) :
    List (Notified E C O K) :=
  order.map fun entry => .subscriber entry.1 entry.2 p

/-- `notifyCallbacks`. -/
def notifyCallbacks (callbacks : List (Option K)) (p : Publication E C) :
    List (Notified E C O K) :=
  callbacks.reduceOption.map fun callback => .callback callback p

/-- `notifyTypedCallbacks`. -/
def notifyTypedCallbacks (event : E) (conn : C) : List (Notified E C O K) :=
  (s.typedCallbacks.filterMap fun tc => if tc.1 = event then tc.2 else none).map
    fun callback => .callback callback (.event event conn)

/-- `PublishEvent`. -/
def publishEvent (event : E) (conn : C) (order : List (Σ _ : Bytes, O)) :
    DefaultEventDispatcher E C O K × List (Notified E C O K) :=
  if s.applyFilters event conn = false then (s, [])
  else
    let s := { s with totalEvents := s.totalEvents + 1 }
    let s := { s with stats := { s.stats with
      eventCounts := fun e => s.stats.eventCounts e + if e = event then 1 else 0 } }
    let s := s.copyCounters
    (s, notifySubscribers order (.event event conn) ++ s.notifyTypedCallbacks event conn)

/-- `PublishData`. -/
def publishData (conn : C) (data : Bytes) (order : List (Σ _ : Bytes, O)) :
    DefaultEventDispatcher E C O K × List (Notified E C O K) :=
  let s := copyCounters { s with totalData := s.totalData + 1 }
  (s, notifySubscribers order (.data conn data)
    ++ notifyCallbacks s.dataCallbacks (.data conn data))

/-- `PublishError`. -/
def publishError (conn : C) (ec : ℤ) (order : List (Σ _ : Bytes, O)) :
    DefaultEventDispatcher E C O K × List (Notified E C O K) :=
  let s := copyCounters { s with totalErrors := s.totalErrors + 1 }
  (s, notifySubscribers order (.error conn ec)
    ++ notifyCallbacks s.errorCallbacks (.error conn ec))

/-- `RouteEvent`. -/
def routeEvent (event : E) (conn : C) (routeKey : Bytes) :
    DefaultEventDispatcher E C O K × List (Notified E C O K) :=
  if s.applyFilters event conn = false then (s, [])
  else
    let target := s.subscribers.lookup routeKey
    (s, target.toList.map (fun object => .subscriber routeKey object (.event event conn))
      ++ s.notifyTypedCallbacks event conn)

/-- The lines that follow each change of the table. -/
def countSubscribers : DefaultEventDispatcher E C O K :=
  { s with
    activeSubscribers := s.subscribers.entries.length
    stats := { s.stats with activeSubscribers := s.subscribers.entries.length } }

/-- `RegisterSubscriber`: a null pointer, or an object with what `GetSubscriberId` returns. -/
def registerSubscriber : Option (Bytes × O) → DefaultEventDispatcher E C O K
  | none => s
  | some (id, object) =>
    countSubscribers { s with subscribers := s.subscribers.insert id object }

/-- `UnregisterSubscriber`. -/
def unregisterSubscriber (id : Bytes) : DefaultEventDispatcher E C O K :=
  countSubscribers { s with subscribers := s.subscribers.erase id }

/-- `UnregisterAllSubscribers`. -/
def unregisterAllSubscribers : DefaultEventDispatcher E C O K :=
  { s with
    subscribers := ∅
    activeSubscribers := 0
    stats := { s.stats with activeSubscribers := 0 } }

/-- `RemoveEventFilter`. -/
def removeEventFilter (index : ℕ) : DefaultEventDispatcher E C O K :=
  if index < s.filters.length then { s with filters := s.filters.eraseIdx index } else s

end Source

/-- The calls; where the table of subscribers is read, with the order in which that is done. -/
inductive Action (E C O K : Type*)
  | subscribeEvent (event : E) (callback : Option K)
  | subscribeData (callback : Option K)
  | subscribeError (callback : Option K)
  | registerSubscriber (subscriber : Option (Bytes × O))
  | unregisterSubscriber (id : Bytes)
  | unregisterAllSubscribers
  | addEventFilter (filter : Option (E → C → Bool))
  | removeEventFilter (index : ℕ)
  | publishEvent (event : E) (conn : C) (order : List (Σ _ : Bytes, O))
  | publishData (conn : C) (data : Bytes) (order : List (Σ _ : Bytes, O))
  | publishError (conn : C) (ec : ℤ) (order : List (Σ _ : Bytes, O))
  | routeEvent (event : E) (conn : C) (routeKey : Bytes)

/-- What a call does, and who is notified. -/
def call (s : DefaultEventDispatcher E C O K) :
    Action E C O K → DefaultEventDispatcher E C O K × List (Notified E C O K)
  | .subscribeEvent event callback =>
    ({ s with typedCallbacks := s.typedCallbacks ++ [(event, callback)] }, [])
  | .subscribeData callback => ({ s with dataCallbacks := s.dataCallbacks ++ [callback] }, [])
  | .subscribeError callback => ({ s with errorCallbacks := s.errorCallbacks ++ [callback] }, [])
  | .registerSubscriber subscriber => (s.registerSubscriber subscriber, [])
  | .unregisterSubscriber id => (s.unregisterSubscriber id, [])
  | .unregisterAllSubscribers => (s.unregisterAllSubscribers, [])
  | .addEventFilter filter => ({ s with filters := s.filters ++ [filter] }, [])
  | .removeEventFilter index => (s.removeEventFilter index, [])
  | .publishEvent event conn order => s.publishEvent event conn order
  | .publishData conn data order => s.publishData conn data order
  | .publishError conn ec order => s.publishError conn ec order
  | .routeEvent event conn routeKey => s.routeEvent event conn routeKey

/-- The order of the table, where a call reads it. -/
def Action.order : Action E C O K → Option (List (Σ _ : Bytes, O))
  | .publishEvent _ _ order => some order
  | .publishData _ _ order => some order
  | .publishError _ _ order => some order
  | _ => none

/-- The dispatcher: the order in which the table is read is one of its entries. -/
def machine (E C O K : Type*) [DecidableEq E] [DecidableEq O] :
    Machine (DefaultEventDispatcher E C O K) (Action E C O K) (List (Notified E C O K)) where
  step s a := if ∀ order ∈ a.order, order.Perm s.subscribers.entries then some (s.call a) else none

/-! ## Who is to be notified -/

/-- What a call makes of who is registered under an id. -/
def Action.registers (id : Bytes) (current : Option O) : Action E C O K → Option O
  | .registerSubscriber (some (id', object)) => if id' = id then some object else current
  | .unregisterSubscriber id' => if id' = id then none else current
  | .unregisterAllSubscribers => none
  | _ => current

/-- **Who is registered under an id** after some calls. -/
def registered (as : List (Action E C O K)) (id : Bytes) : Option O :=
  as.foldl (Action.registers id) none

/-- The callback that a call subscribes to a publication, if it is not empty. -/
def Action.subscribes (p : Publication E C) : Action E C O K → Option K
  | .subscribeEvent event callback =>
    match p with
    | .event event' _ => if event = event' then callback else none
    | _ => none
  | .subscribeData callback =>
    match p with
    | .data _ _ => callback
    | _ => none
  | .subscribeError callback =>
    match p with
    | .error _ _ => callback
    | _ => none
  | _ => none

/-- **The callbacks for a publication** after some calls, in the order of subscription. -/
def subscribed (as : List (Action E C O K)) (p : Publication E C) : List K :=
  as.filterMap (Action.subscribes p)

/-- What a call makes of the filters. -/
def Action.filters (current : List (Option (E → C → Bool))) :
    Action E C O K → List (Option (E → C → Bool))
  | .addEventFilter filter => current ++ [filter]
  | .removeEventFilter index => current.eraseIdx index
  | _ => current

/-- **All current filters let an event pass.** -/
def Accepts (as : List (Action E C O K)) (event : E) (conn : C) : Prop :=
  ∀ filter ∈ as.foldl Action.filters [], ∀ f ∈ filter, f event conn = true

/-- **Everybody is notified who should be**: each id that is registered once, with the object that
is registered, and then the callbacks in their order. -/
def NotifiesAll (as : List (Action E C O K)) (p : Publication E C)
    (notified : List (Notified E C O K)) : Prop :=
  ∃ table : List (Bytes × O), (table.map Prod.fst).Nodup
    ∧ (∀ id object, (id, object) ∈ table ↔ registered as id = some object)
    ∧ notified = table.map (fun entry => .subscriber entry.1 entry.2 p)
      ++ (subscribed as p).map fun callback => .callback callback p

/-- **What a call owes**, made in a state `s` after the calls `as`: whom it notifies, and that
`RouteEvent` and what is rejected change nothing. -/
def Owes (as : List (Action E C O K)) (s : DefaultEventDispatcher E C O K)
    (r : DefaultEventDispatcher E C O K × List (Notified E C O K)) : Action E C O K → Prop
  | .publishEvent event conn _ =>
    (Accepts as event conn → NotifiesAll as (.event event conn) r.2)
      ∧ (¬ Accepts as event conn → r = (s, []))
  | .publishData conn data _ => NotifiesAll as (.data conn data) r.2
  | .publishError conn ec _ => NotifiesAll as (.error conn ec) r.2
  | .routeEvent event conn routeKey =>
    r.1 = s ∧ (¬ Accepts as event conn → r.2 = [])
      ∧ (Accepts as event conn → r.2
        = (registered as routeKey).toList.map
            (fun object => .subscriber routeKey object (.event event conn))
          ++ (subscribed as (.event event conn)).map
            fun callback => .callback callback (.event event conn))
  | _ => r.2 = []

/-- `active_subscribers` is the number of ids that are registered. -/
def CountsRegistered (as : List (Action E C O K)) (s : DefaultEventDispatcher E C O K) : Prop :=
  ∃ ids : List Bytes, ids.Nodup ∧ (∀ id, id ∈ ids ↔ (registered as id).isSome)
    ∧ s.stats.activeSubscribers = ids.length

/-! ## The registries and the calls that have been made -/

omit [DecidableEq E] in
theorem registered_append (as : List (Action E C O K)) (a : Action E C O K) (id : Bytes) :
    registered (as ++ [a]) id = a.registers id (registered as id) := by
  rw [registered, List.foldl_append]
  rfl

theorem subscribed_append (as : List (Action E C O K)) (a : Action E C O K)
    (p : Publication E C) :
    subscribed (as ++ [a]) p = subscribed as p ++ (a.subscribes p).toList := by
  rw [subscribed, List.filterMap_append, List.filterMap_cons]
  cases a.subscribes p <;> rfl

omit [DecidableEq E] in
theorem filters_append (as : List (Action E C O K)) (a : Action E C O K) :
    (as ++ [a]).foldl Action.filters [] = a.filters (as.foldl Action.filters []) := by
  rw [List.foldl_append]
  rfl

/-- **The registries say what the calls have said.** -/
structure Reflects (as : List (Action E C O K)) (s : DefaultEventDispatcher E C O K) : Prop where
  registered : ∀ id, s.subscribers.lookup id = registered as id
  typed : ∀ event conn, s.typedCallbacks.filterMap (fun tc => if tc.1 = event then tc.2 else none)
    = subscribed as (.event event conn)
  data : ∀ conn data, s.dataCallbacks.reduceOption = subscribed as (.data conn data)
  error : ∀ conn ec, s.errorCallbacks.reduceOption = subscribed as (.error conn ec)
  filters : s.filters = as.foldl Action.filters []
  active : s.activeSubscribers = s.subscribers.entries.length
  stats : s.stats.activeSubscribers = s.subscribers.entries.length

variable {s : DefaultEventDispatcher E C O K} {as : List (Action E C O K)}

theorem reflects_new : Reflects [] ({} : DefaultEventDispatcher E C O K) where
  registered _ := rfl
  typed _ _ := rfl
  data _ _ := rfl
  error _ _ := rfl
  filters := rfl
  active := rfl
  stats := rfl

/-- What a call has to do to each of the registries. -/
theorem Reflects.append (h : Reflects as s) {s' : DefaultEventDispatcher E C O K}
    {a : Action E C O K}
    (hregistered : ∀ id, s'.subscribers.lookup id = a.registers id (s.subscribers.lookup id))
    (htyped : ∀ event conn,
      s'.typedCallbacks.filterMap (fun tc => if tc.1 = event then tc.2 else none)
        = s.typedCallbacks.filterMap (fun tc => if tc.1 = event then tc.2 else none)
          ++ (a.subscribes (.event event conn)).toList)
    (hdata : ∀ conn data, s'.dataCallbacks.reduceOption
      = s.dataCallbacks.reduceOption ++ (a.subscribes (.data conn data)).toList)
    (herror : ∀ conn ec, s'.errorCallbacks.reduceOption
      = s.errorCallbacks.reduceOption ++ (a.subscribes (.error conn ec)).toList)
    (hfilters : s'.filters = a.filters s.filters)
    (hactive : s'.activeSubscribers = s'.subscribers.entries.length)
    (hstats : s'.stats.activeSubscribers = s'.subscribers.entries.length) :
    Reflects (as ++ [a]) s' where
  registered id := by rw [registered_append, hregistered, h.registered]
  typed event conn := by rw [subscribed_append, htyped event conn, h.typed event conn]
  data conn data := by rw [subscribed_append, hdata conn data, h.data conn data]
  error conn ec := by rw [subscribed_append, herror conn ec, h.error conn ec]
  filters := by rw [filters_append, hfilters, h.filters]
  active := hactive
  stats := hstats

/-- A call that subscribes no callback. -/
theorem Reflects.append_silent {s' : DefaultEventDispatcher E C O K} (h : Reflects as s)
    {a : Action E C O K} (hsubscribes : ∀ p, a.subscribes p = none)
    (hregistered : ∀ id, s'.subscribers.lookup id = a.registers id (s.subscribers.lookup id))
    (htyped : s'.typedCallbacks = s.typedCallbacks) (hdata : s'.dataCallbacks = s.dataCallbacks)
    (herror : s'.errorCallbacks = s.errorCallbacks) (hfilters : s'.filters = a.filters s.filters)
    (hactive : s'.activeSubscribers = s'.subscribers.entries.length)
    (hstats : s'.stats.activeSubscribers = s'.subscribers.entries.length) :
    Reflects (as ++ [a]) s' := by
  refine h.append hregistered (fun event conn => ?_) (fun conn data => ?_) (fun conn ec => ?_)
    hfilters hactive hstats
  · rw [htyped, hsubscribes, Option.toList_none, List.append_nil]
  · rw [hdata, hsubscribes, Option.toList_none, List.append_nil]
  · rw [herror, hsubscribes, Option.toList_none, List.append_nil]

/-- **Every call keeps the registries in step with the calls.** -/
theorem Reflects.call (h : Reflects as s) (a : Action E C O K) :
    Reflects (as ++ [a]) (s.call a).1 := by
  have hsame : ∀ {l : List K}, l = l ++ (none : Option K).toList := (List.append_nil _).symm
  cases a with
  | subscribeEvent event callback =>
    refine h.append (fun _ => rfl) (fun e _ => ?_) (fun _ _ => hsame) (fun _ _ => hsame) rfl
      h.active h.stats
    show (s.typedCallbacks ++ [(event, callback)]).filterMap _ = _
    rw [List.filterMap_append, List.filterMap_cons, List.filterMap_nil]
    show _ ++ _ = _ ++ (if event = e then callback else none).toList
    cases (if event = e then callback else none) <;> rfl
  | subscribeData callback =>
    refine h.append (fun _ => rfl) (fun _ _ => hsame) (fun _ _ => ?_) (fun _ _ => hsame) rfl
      h.active h.stats
    show (s.dataCallbacks ++ [callback]).reduceOption = _
    rw [List.reduceOption_append]
    cases callback <;> rfl
  | subscribeError callback =>
    refine h.append (fun _ => rfl) (fun _ _ => hsame) (fun _ _ => hsame) (fun _ _ => ?_) rfl
      h.active h.stats
    show (s.errorCallbacks ++ [callback]).reduceOption = _
    rw [List.reduceOption_append]
    cases callback <;> rfl
  | registerSubscriber subscriber =>
    cases subscriber with
    | none => exact h.append_silent (fun _ => rfl) (fun _ => rfl) rfl rfl rfl rfl h.active h.stats
    | some subscriber =>
      refine h.append_silent (fun _ => rfl) (fun id => ?_) rfl rfl rfl rfl rfl rfl
      show (s.subscribers.insert subscriber.1 subscriber.2).lookup id
        = if subscriber.1 = id then some subscriber.2 else _
      by_cases hid : subscriber.1 = id
      · rw [if_pos hid, ← hid, AList.lookup_insert]
      · rw [if_neg hid, AList.lookup_insert_ne (Ne.symm hid)]
  | unregisterSubscriber id' =>
    refine h.append_silent (fun _ => rfl) (fun id => ?_) rfl rfl rfl rfl rfl rfl
    show (s.subscribers.erase id').lookup id = if id' = id then none else _
    by_cases hid : id' = id
    · rw [if_pos hid, ← hid, AList.lookup_erase]
    · rw [if_neg hid, AList.lookup_erase_ne (Ne.symm hid)]
  | unregisterAllSubscribers =>
    exact h.append_silent (fun _ => rfl) (fun _ => rfl) rfl rfl rfl rfl rfl rfl
  | addEventFilter filter =>
    exact h.append_silent (fun _ => rfl) (fun _ => rfl) rfl rfl rfl rfl h.active h.stats
  | removeEventFilter index =>
    have hs : (s.removeEventFilter index) = { s with filters := s.filters.eraseIdx index } := by
      unfold removeEventFilter
      split
      · rfl
      · rw [List.eraseIdx_of_length_le (by omega)]
    show Reflects _ (s.removeEventFilter index)
    rw [hs]
    exact h.append_silent (fun _ => rfl) (fun _ => rfl) rfl rfl rfl rfl h.active h.stats
  | publishEvent event conn order =>
    show Reflects _ (s.publishEvent event conn order).1
    unfold publishEvent
    split
    · exact h.append_silent (fun _ => rfl) (fun _ => rfl) rfl rfl rfl rfl h.active h.stats
    · exact h.append_silent (fun _ => rfl) (fun _ => rfl) rfl rfl rfl rfl h.active h.active
  | publishData conn data order =>
    exact h.append_silent (fun _ => rfl) (fun _ => rfl) rfl rfl rfl rfl h.active h.active
  | publishError conn ec order =>
    exact h.append_silent (fun _ => rfl) (fun _ => rfl) rfl rfl rfl rfl h.active h.active
  | routeEvent event conn routeKey =>
    have hs : (s.routeEvent event conn routeKey).1 = s := by
      unfold routeEvent
      split <;> rfl
    show Reflects _ (s.routeEvent event conn routeKey).1
    rw [hs]
    exact h.append_silent (fun _ => rfl) (fun _ => rfl) rfl rfl rfl rfl h.active h.stats

/-! ## Whom a call notifies -/

theorem Reflects.accepts_iff (h : Reflects as s) (event : E) (conn : C) :
    s.applyFilters event conn = true ↔ Accepts as event conn := by
  rw [applyFilters, h.filters, List.all_eq_true]
  refine forall_congr' fun filter => imp_congr_right fun _ => ?_
  cases filter <;> simp

theorem Reflects.countsRegistered (h : Reflects as s) : CountsRegistered as s := by
  refine ⟨s.subscribers.keys, s.subscribers.keys_nodup, fun id => ?_, ?_⟩
  · rw [← AList.mem_keys, ← AList.lookup_isSome, h.registered]
  · rw [h.stats]
    exact (List.length_map _).symm

/-- The table, read in any order, and then the callbacks. -/
theorem Reflects.notifiesAll (h : Reflects as s) {order : List (Σ _ : Bytes, O)}
    (horder : order.Perm s.subscribers.entries) {p : Publication E C}
    {callbacks : List (Notified E C O K)}
    (hcallbacks : callbacks = (subscribed as p).map fun callback => .callback callback p) :
    NotifiesAll as p (notifySubscribers order p ++ callbacks) := by
  refine ⟨order.map fun entry => (entry.1, entry.2), ?_, fun id object => ?_, ?_⟩
  · rw [List.map_map]
    exact (horder.map Sigma.fst).nodup_iff.mpr s.subscribers.keys_nodup
  · rw [← h.registered, ← Option.mem_def, AList.mem_lookup_iff, ← horder.mem_iff, List.mem_map]
    constructor
    · rintro ⟨entry, hmem, he⟩
      cases he
      exact hmem
    · intro hmem
      exact ⟨_, hmem, rfl⟩
  · rw [List.map_map, hcallbacks]
    rfl

/-- **Each call does what it owes.** -/
theorem Reflects.owes (h : Reflects as s) {a : Action E C O K}
    (horder : ∀ order ∈ a.order, order.Perm s.subscribers.entries) :
    Owes as s (s.call a) a := by
  cases a with
  | publishEvent event conn order =>
    show (Accepts as event conn → NotifiesAll as (.event event conn)
      (s.publishEvent event conn order).2)
        ∧ (¬ Accepts as event conn → s.publishEvent event conn order = (s, []))
    rw [← h.accepts_iff event conn]
    refine ⟨fun hpass => ?_, fun hno => if_pos (Bool.eq_false_iff.mpr hno)⟩
    have htyped : s.notifyTypedCallbacks event conn = (subscribed as (.event event conn)).map
        fun callback => .callback callback (.event event conn) := by
      rw [notifyTypedCallbacks, h.typed event conn]
    have hall := h.notifiesAll (horder order rfl) htyped
    rw [publishEvent, hpass, if_neg (by decide : ¬ true = false)]
    exact hall
  | publishData conn data order =>
    refine h.notifiesAll (horder order rfl) ?_
    rw [notifyCallbacks]
    exact congrArg _ (h.data conn data)
  | publishError conn ec order =>
    refine h.notifiesAll (horder order rfl) ?_
    rw [notifyCallbacks]
    exact congrArg _ (h.error conn ec)
  | routeEvent event conn routeKey =>
    show (s.routeEvent event conn routeKey).1 = s
      ∧ (¬ Accepts as event conn → (s.routeEvent event conn routeKey).2 = [])
      ∧ (Accepts as event conn → (s.routeEvent event conn routeKey).2 = _)
    rw [← h.accepts_iff event conn, routeEvent]
    cases hpass : s.applyFilters event conn with
    | false => exact ⟨rfl, fun _ => rfl, fun hno => absurd hno Bool.false_ne_true⟩
    | true =>
      refine ⟨rfl, fun hno => absurd rfl hno, fun _ => ?_⟩
      rw [if_neg (by decide : ¬ true = false), ← h.registered, ← h.typed event conn]
      rfl
  | _ => rfl

/-- **Synchronous dispatch delivers exactly to whom it should**, in every run and whatever call
comes next. -/
theorem dispatch_exact [DecidableEq O] {as : List (Action E C O K)}
    {s : DefaultEventDispatcher E C O K} {os : List (List (Notified E C O K))}
    (hr : (machine E C O K).run {} as = some (s, os)) :
    CountsRegistered as s ∧ ∀ a r, (machine E C O K).step s a = some r → Owes as s r a := by
  have h : Reflects as s := by
    refine Machine.run_history (I := fun s as => Reflects as s) reflects_new ?_ hr
    intro s' before a r h hstep
    obtain ⟨-, hcall⟩ := Option.ite_none_right_eq_some.mp hstep
    obtain rfl := Option.some.inj hcall
    exact h.call a
  refine ⟨h.countsRegistered, fun a r hstep => ?_⟩
  obtain ⟨horder, hcall⟩ := Option.ite_none_right_eq_some.mp hstep
  obtain rfl := Option.some.inj hcall
  exact h.owes horder

/-- Two subscribers, the second of which is replaced under its id, and a filter for event 9. -/
def rereading : List (Action ℕ ℕ ℕ ℕ) :=
  [.registerSubscriber (some (lit "a", 1)), .registerSubscriber (some (lit "b", 2)),
    .subscribeEvent 7 (some 50), .subscribeEvent 7 none, .registerSubscriber (some (lit "b", 3)),
    .addEventFilter (some fun event _ => event ≠ 9),
    .publishEvent 7 0 [⟨lit "a", 1⟩, ⟨lit "b", 3⟩]]

theorem dispatch_exact_rereading :
    ∃ s os, (machine ℕ ℕ ℕ ℕ).run {} rereading = some (s, os) ∧ CountsRegistered rereading s
      ∧ ∀ a r, (machine ℕ ℕ ℕ ℕ).step s a = some r → Owes rereading s r a :=
  ⟨_, _, rfl, dispatch_exact rfl⟩

end DefaultEventDispatcher
