import HttpServer.Machine
import Mathlib.Data.Int.Notation
import Mathlib.Data.Nat.Notation
import Mathlib.Logic.Function.Basic

/-!
# The poller

`EpollPoller` of `core/net/poller.cpp`. It keeps the context of each descriptor in a map of its
own, since epoll is only given the descriptor, and `poll` looks the context up again. The map is
edited before `epoll_ctl` is called, and nothing is put back where that fails. So a call that
throws has changed the map, unless the edit was none: `exact_iff` says that the map agrees with
what is registered exactly as long as no call is refused after an edit.
-/

/-- `EventMask`, with the constants of `poller.hpp`. -/
abbrev EventMask := UInt32

namespace EventMask

def eventRead : EventMask := 0x01
def eventWrite : EventMask := 0x02
def eventError : EventMask := 0x04
def eventHup : EventMask := 0x08
def eventRdhup : EventMask := 0x10

/-! The flags of epoll. -/

def epollin : UInt32 := 0x001
def epollout : UInt32 := 0x004
def epollerr : UInt32 := 0x008
def epollhup : UInt32 := 0x010
def epollrdhup : UInt32 := 0x2000
def epollet : UInt32 := 0x80000000

/-- `to_epoll_events`: edge triggered in any case. -/
def toEpollEvents (events : EventMask) : UInt32 :=
  (if events &&& eventRead ≠ 0 then epollin else 0)
    ||| (if events &&& eventWrite ≠ 0 then epollout else 0)
    ||| (if events &&& eventHup ≠ 0 then epollhup else 0)
    ||| (if events &&& eventRdhup ≠ 0 then epollrdhup else 0)
    ||| (if events &&& eventError ≠ 0 then epollerr else 0)
    ||| epollet

/-- `from_epoll_events`. -/
def fromEpollEvents (flags : UInt32) : EventMask :=
  (if flags &&& epollin ≠ 0 then eventRead else 0)
    ||| (if flags &&& epollout ≠ 0 then eventWrite else 0)
    ||| (if flags &&& epollhup ≠ 0 then eventHup else 0)
    ||| (if flags &&& epollrdhup ≠ 0 then eventRdhup else 0)
    ||| (if flags &&& epollerr ≠ 0 then eventError else 0)

end EventMask

/-- The numbers of `errno` that the poller names. -/
def Errno.enoent : ℕ := 2
def Errno.eintr : ℕ := 4
def Errno.einval : ℕ := 22

/-- `std::system_error`: the code, and what the message says before it. -/
structure SystemError where
  code : ℕ
  what : String
  deriving DecidableEq, Repr

/-- `struct epoll_event`, of the data of which only `data.fd` is used. -/
structure EpollEvent where
  events : UInt32
  dataFd : ℤ
  deriving DecidableEq, Repr

/-- The operations of `epoll_ctl`. -/
inductive EpollOp
  | add
  | mod
  | del
  deriving DecidableEq, Repr

/-- `Poller::Event`. A context is a pointer, and `none` the null pointer. -/
structure PollerEvent (Context : Type*) where
  fd : ℤ
  events : EventMask
  context : Option Context
  deriving DecidableEq, Repr

/-- `EpollPoller`. No null pointer gets into `fd_to_context_`. -/
structure EpollPoller (Context : Type*) where
  epollFd : ℤ
  fdToContext : ℤ → Option Context := fun _ => none
  /-- The interest list behind `epoll_fd_`, which the kernel keeps. -/
  interest : ℤ → Option EpollEvent := fun _ => none

namespace EpollPoller

variable {Context : Type*}

/-! ## The source -/

/-- The constructor: `epoll_create1` gives a descriptor, or a negative number and an `errno`. -/
def create (epollCreate1 : ℤ) (errno : ℕ) : Except SystemError (EpollPoller Context) :=
  if epollCreate1 < 0 then .error ⟨errno, "epoll_create1 failed"⟩
  else .ok { epollFd := epollCreate1 }

/-- `epoll_ctl`, as far as the interest list goes: it is changed by a call that succeeds, and a
removal that fails with `ENOENT` says that there is nothing to remove. -/
def epollCtl (p : EpollPoller Context) (op : EpollOp) (fd : ℤ) (ev : EpollEvent) :
    Option ℕ → EpollPoller Context
  | none =>
    match op with
    | .add | .mod => { p with interest := Function.update p.interest fd (some ev) }
    | .del => { p with interest := Function.update p.interest fd none }
  | some errno =>
    if op = .del ∧ errno = Errno.enoent then
      { p with interest := Function.update p.interest fd none }
    else p

/-- `update_fd`, with the `errno` that `epoll_ctl` fails with, if it does. -/
def updateFd (p : EpollPoller Context) (op : EpollOp) (fd : ℤ) (events : EventMask)
    (context : Option Context) (errno : Option ℕ) : EpollPoller Context × Except SystemError Unit :=
  if p.epollFd < 0 ∨ fd < 0 then
    (p, .error ⟨Errno.einval, "invalid fd or epoll not initialized"⟩)
  else
    -- a null pointer takes the entry out
    let fdToContext :=
      if op = .add ∨ op = .mod then Function.update p.fdToContext fd context else p.fdToContext
    let ev : EpollEvent := ⟨events.toEpollEvents, fd⟩
    let p := ({ p with fdToContext }).epollCtl op fd ev errno
    match errno with
    | some e => (p, .error ⟨e, "epoll_ctl failed"⟩)
    | none => (p, .ok ())

/-- `add_fd`. -/
def addFd (p : EpollPoller Context) (fd : ℤ) (events : EventMask) (context : Option Context)
    (errno : Option ℕ) : EpollPoller Context × Except SystemError Unit :=
  p.updateFd .add fd events context errno

/-- `mod_fd`. -/
def modFd (p : EpollPoller Context) (fd : ℤ) (events : EventMask) (context : Option Context)
    (errno : Option ℕ) : EpollPoller Context × Except SystemError Unit :=
  p.updateFd .mod fd events context errno

/-- `del_fd`. -/
def delFd (p : EpollPoller Context) (fd : ℤ) (errno : Option ℕ) :
    EpollPoller Context × Except SystemError Unit :=
  if p.epollFd < 0 ∨ fd < 0 then
    (p, .error ⟨Errno.einval, "invalid fd or epoll not initialized"⟩)
  else
    let fdToContext := Function.update p.fdToContext fd none
    let p := ({ p with fdToContext }).epollCtl .del fd ⟨0, 0⟩ errno
    match errno with
    | some e =>
      if e ≠ Errno.enoent then (p, .error ⟨e, "epoll_ctl DEL failed"⟩) else (p, .ok ())
    | none => (p, .ok ())

/-- One event for the caller. -/
def toEvent (p : EpollPoller Context) (ev : EpollEvent) : PollerEvent Context :=
  ⟨ev.dataFd, EventMask.fromEpollEvents ev.events, p.fdToContext ev.dataFd⟩

/-- `poll`, with what `epoll_wait` answers: the number that it returns and `active_events`, which
stay as they were where there is nothing to report. -/
def poll (p : EpollPoller Context) (epollWait : Except ℕ (List EpollEvent))
    (activeEvents : List (PollerEvent Context)) : ℤ × List (PollerEvent Context) :=
  if p.epollFd < 0 then (-1, activeEvents)
  else
    match epollWait with
    | .error errno => if errno = Errno.eintr then (0, activeEvents) else (-1, activeEvents)
    | .ok evs => (evs.length, evs.map p.toEvent)

end EpollPoller

/-- A call of the poller, with the `errno` that `epoll_ctl` fails with in it, if it does. -/
inductive PollerCall (Context : Type*)
  | addFd (fd : ℤ) (events : EventMask) (context : Option Context) (errno : Option ℕ)
  | modFd (fd : ℤ) (events : EventMask) (context : Option Context) (errno : Option ℕ)
  | delFd (fd : ℤ) (errno : Option ℕ)

/-- A poller in use, with the context that the last `add_fd` or `mod_fd` of each descriptor gave
that did not throw. -/
structure Polling (Context : Type*) where
  poller : EpollPoller Context
  given : ℤ → Option Context := fun _ => none

namespace Polling

variable {Context : Type*}

/-- A call that does not throw has given its context. -/
def give (s : Polling Context) (fd : ℤ) (context : Option Context)
    (r : EpollPoller Context × Except SystemError Unit) :
    Polling Context × Except SystemError Unit :=
  match r.2 with
  | .ok _ => (⟨r.1, Function.update s.given fd context⟩, r.2)
  | .error _ => (⟨r.1, s.given⟩, r.2)

/-- The call, and the exception that it throws. -/
def perform (s : Polling Context) : PollerCall Context → Polling Context × Except SystemError Unit
  | .addFd fd events context errno => s.give fd context (s.poller.addFd fd events context errno)
  | .modFd fd events context errno => s.give fd context (s.poller.modFd fd events context errno)
  | .delFd fd errno => (⟨(s.poller.delFd fd errno).1, s.given⟩, (s.poller.delFd fd errno).2)

def machine : Machine (Polling Context) (PollerCall Context) (Except SystemError Unit) :=
  ⟨fun s call => some (s.perform call)⟩

/-! ## What the map is for -/

/-- A call that throws leaves the map as it was. -/
def ThrowsChangeNothing (s : Polling Context) (call : PollerCall Context) : Prop :=
  ∀ e, (s.perform call).2 = .error e →
    (s.perform call).1.poller.fdToContext = s.poller.fdToContext

/-- The context that a descriptor is registered with. -/
def registered (s : Polling Context) (fd : ℤ) : Option Context :=
  if s.poller.interest fd = none then none else s.given fd

/-- What the kernel can report of a descriptor: events of its own choice, with the data that the
descriptor has been registered with. -/
def CanReport (s : Polling Context) (fd : ℤ) (ev : EpollEvent) : Prop :=
  ∃ reg, s.poller.interest fd = some reg ∧ ev.dataFd = reg.dataFd

/-- **The map agrees with what is registered**, and `poll` reports each event with the
descriptor that it is of, and with the context of that. -/
structure Exact (s : Polling Context) : Prop where
  map_eq : s.poller.fdToContext = s.registered
  reports : ∀ (ready : List (ℤ × EpollEvent)) (activeEvents : List (PollerEvent Context)),
    (∀ r ∈ ready, s.CanReport r.1 r.2) →
    s.poller.poll (.ok (ready.map Prod.snd)) activeEvents
      = ((ready.length : ℤ), ready.map fun r =>
          ⟨r.1, EventMask.fromEpollEvents r.2.events, s.given r.1⟩)

/-- Where `epoll_ctl` refuses a valid descriptor, the map is already as the call would have it;
`del_fd` may be refused with `ENOENT`. -/
def Harmless (s : Polling Context) : PollerCall Context → Prop
  | .addFd fd _ context errno | .modFd fd _ context errno =>
    0 ≤ fd → errno ≠ none → s.poller.fdToContext fd = context
  | .delFd fd errno =>
    0 ≤ fd → errno ≠ none → errno ≠ some Errno.enoent → s.poller.fdToContext fd = none

/-! ## One call -/

section Calls

variable {s : Polling Context} {fd : ℤ} {context : Option Context}

/-- The state after an edit of the map alone. -/
def edit (s : Polling Context) (fd : ℤ) (context : Option Context) : Polling Context :=
  { s with
    poller := { s.poller with fdToContext := Function.update s.poller.fdToContext fd context } }

/-- The state after a call that has registered a descriptor. -/
def register (s : Polling Context) (fd : ℤ) (ev : EpollEvent) (context : Option Context) :
    Polling Context :=
  { poller :=
      { s.poller with
        fdToContext := Function.update s.poller.fdToContext fd context
        interest := Function.update s.poller.interest fd (some ev) }
    given := Function.update s.given fd context }

/-- The state after a call that has removed one. -/
def unregister (s : Polling Context) (fd : ℤ) : Polling Context :=
  { s with
    poller :=
      { s.poller with
        fdToContext := Function.update s.poller.fdToContext fd none
        interest := Function.update s.poller.interest fd none } }

/-- A negative descriptor is refused before anything is done. -/
theorem updateFd_of_neg (op : EpollOp) (events : EventMask) (errno : Option ℕ) (hfd : fd < 0) :
    s.give fd context (s.poller.updateFd op fd events context errno)
      = (s, .error ⟨Errno.einval, "invalid fd or epoll not initialized"⟩) := by
  unfold EpollPoller.updateFd
  rw [if_pos (Or.inr hfd)]
  rfl

/-- **What `update_fd` does with a valid descriptor.** The edit is made in any case. -/
theorem updateFd_of_nonneg (s : Polling Context) (context : Option Context) {op : EpollOp}
    (hop : op ≠ .del) (events : EventMask) (h : 0 ≤ s.poller.epollFd) (hfd : 0 ≤ fd) :
    s.give fd context (s.poller.updateFd op fd events context none)
        = (s.register fd ⟨events.toEpollEvents, fd⟩ context, .ok ())
      ∧ ∀ e, s.give fd context (s.poller.updateFd op fd events context (some e))
        = (s.edit fd context, .error ⟨e, "epoll_ctl failed"⟩) := by
  have hguard : ¬ (s.poller.epollFd < 0 ∨ fd < 0) := by omega
  unfold EpollPoller.updateFd
  simp only [if_neg hguard]
  cases op with
  | del => exact absurd rfl hop
  | add => exact ⟨rfl, fun e => rfl⟩
  | mod => exact ⟨rfl, fun e => rfl⟩

/-- The same for a removal. -/
theorem delFd_of_neg (errno : Option ℕ) (hfd : fd < 0) :
    s.perform (.delFd fd errno)
      = (s, .error ⟨Errno.einval, "invalid fd or epoll not initialized"⟩) := by
  have hdel : s.poller.delFd fd errno = (s.poller, .error _) := if_pos (Or.inr hfd)
  change (Polling.mk (s.poller.delFd fd errno).1 s.given, (s.poller.delFd fd errno).2) = _
  rw [hdel]

/-- **What `del_fd` does with a valid descriptor.** Here too the edit is made in any case. -/
theorem delFd_of_nonneg (h : 0 ≤ s.poller.epollFd) (hfd : 0 ≤ fd) (errno : Option ℕ) :
    s.perform (.delFd fd errno)
      = if errno = none ∨ errno = some Errno.enoent then (s.unregister fd, .ok ())
        else (s.edit fd none, .error ⟨errno.getD 0, "epoll_ctl DEL failed"⟩) := by
  have hguard : ¬ (s.poller.epollFd < 0 ∨ fd < 0) := by omega
  change (Polling.mk (s.poller.delFd fd errno).1 s.given, (s.poller.delFd fd errno).2) = _
  unfold EpollPoller.delFd
  rw [if_neg hguard]
  cases errno with
  | none => rfl
  | some e =>
    by_cases he : e = Errno.enoent
    · rw [he]
      rfl
    · have hctl (p : EpollPoller Context) : p.epollCtl .del fd ⟨0, 0⟩ (some e) = p :=
        if_neg fun hn => he hn.2
      have hif : ¬ (some e = none ∨ some e = some Errno.enoent) := by simp [he]
      simp only [hctl, if_pos he, if_neg hif]
      rfl

/-- An edit that changes nothing. -/
theorem edit_of_eq (h : s.poller.fdToContext fd = context) : s.edit fd context = s := by
  obtain ⟨⟨epollFd, fdToContext, interest⟩, given⟩ := s
  change fdToContext fd = context at h
  unfold edit
  rw [← h]
  simp only [Function.update_eq_self]

/-- **What a call can do**, and whether that is `harmless`: it is refused at once, it registers or
removes a descriptor, or it throws after it has edited the map. Only the last can do harm. -/
inductive Outcome (s : Polling Context) (harmless : Prop) :
    Polling Context × Except SystemError Unit → Prop
  | refused (e : SystemError) : harmless → Outcome s harmless (s, .error e)
  | registered (fd : ℤ) (events : UInt32) (context : Option Context) : harmless →
    Outcome s harmless (s.register fd ⟨events, fd⟩ context, .ok ())
  | removed (fd : ℤ) : harmless → Outcome s harmless (s.unregister fd, .ok ())
  | edited (fd : ℤ) (context : Option Context) (e : SystemError) :
    (harmless ↔ s.poller.fdToContext fd = context) →
    Outcome s harmless (s.edit fd context, .error e)

/-- The outcomes of `add_fd` and `mod_fd`. -/
theorem updateFd_outcome (h : 0 ≤ s.poller.epollFd) {op : EpollOp} (hop : op ≠ .del) (fd : ℤ)
    (events : EventMask) (context : Option Context) (errno : Option ℕ) :
    s.Outcome (0 ≤ fd → errno ≠ none → s.poller.fdToContext fd = context)
      (s.give fd context (s.poller.updateFd op fd events context errno)) := by
  rcases Int.lt_or_le fd 0 with hfd | hfd
  · rw [updateFd_of_neg op events errno hfd]
    exact .refused _ fun h0 => by omega
  · obtain ⟨hok, hfail⟩ := updateFd_of_nonneg s context hop events h hfd
    cases errno with
    | none =>
      rw [hok]
      exact .registered fd _ context fun _ hn => absurd rfl hn
    | some e =>
      rw [hfail e]
      exact .edited fd context _
        ⟨fun hc => hc hfd (Option.some_ne_none e), fun hc _ _ => hc⟩

/-- The outcomes of every call. -/
theorem perform_outcome (h : 0 ≤ s.poller.epollFd) (call : PollerCall Context) :
    s.Outcome (s.Harmless call) (s.perform call) := by
  cases call with
  | addFd fd events context errno => exact updateFd_outcome h (by decide) fd events context errno
  | modFd fd events context errno => exact updateFd_outcome h (by decide) fd events context errno
  | delFd fd errno =>
    rcases Int.lt_or_le fd 0 with hfd | hfd
    · rw [delFd_of_neg errno hfd]
      exact .refused _ fun h0 => by omega
    · rw [delFd_of_nonneg h hfd errno]
      by_cases hn : errno = none ∨ errno = some Errno.enoent
      · rw [if_pos hn]
        exact .removed fd fun _ h1 h2 => absurd hn (not_or.mpr ⟨h1, h2⟩)
      · rw [if_neg hn]
        obtain ⟨h1, h2⟩ := not_or.mp hn
        exact .edited fd none _ ⟨fun hc => hc hfd h1 h2, fun hc _ _ _ => hc⟩

end Calls

/-! ## Runs -/

/-- **The invariant**: the map is what is registered, and the data of a registration is the
descriptor. -/
structure Inv (s : Polling Context) : Prop where
  epollFd_nonneg : 0 ≤ s.poller.epollFd
  map_eq : s.poller.fdToContext = s.registered
  dataFd_eq : ∀ fd reg, s.poller.interest fd = some reg → reg.dataFd = fd

namespace Inv

variable {s : Polling Context}

/-- What `poll` reports follows from the map. -/
theorem exact (h : s.Inv) : s.Exact where
  map_eq := h.map_eq
  reports := by
    intro ready activeEvents hready
    have hguard : ¬ s.poller.epollFd < 0 := Int.not_lt.mpr h.epollFd_nonneg
    unfold EpollPoller.poll
    rw [if_neg hguard]
    dsimp only
    rw [List.length_map, List.map_map]
    refine congrArg _ (List.map_congr_left fun r hr => ?_)
    obtain ⟨reg, hreg, hdata⟩ := hready r hr
    rw [h.dataFd_eq r.1 reg hreg] at hdata
    have hcontext : s.poller.fdToContext r.1 = s.given r.1 := by
      rw [h.map_eq, registered, hreg, if_neg (Option.some_ne_none reg)]
    rw [Function.comp_apply, EpollPoller.toEvent, hdata, hcontext]

/-- **Both tables change at the same place**: the map and the interest list still agree if they
do so for that descriptor. -/
theorem update (h : s.Inv) {fd : ℤ} {context : Option Context} {reg : Option EpollEvent}
    {given : ℤ → Option Context} (hcontext : context = if reg = none then none else given fd)
    (hdata : ∀ ev, reg = some ev → ev.dataFd = fd) (hgiven : ∀ d, d ≠ fd → given d = s.given d) :
    Inv ⟨⟨s.poller.epollFd, Function.update s.poller.fdToContext fd context,
      Function.update s.poller.interest fd reg⟩, given⟩ where
  epollFd_nonneg := h.epollFd_nonneg
  map_eq := by
    funext d
    have hd := congrFun h.map_eq d
    unfold registered at hd ⊢
    by_cases hfd : d = fd
    · rw [hfd]
      simp only [Function.update_self]
      exact hcontext
    · simp only [Function.update_of_ne hfd]
      rw [hgiven d hfd]
      exact hd
  dataFd_eq := by
    intro d ev hev
    by_cases hfd : d = fd
    · rw [hfd] at hev ⊢
      simp only [Function.update_self] at hev
      exact hdata ev hev
    · simp only [Function.update_of_ne hfd] at hev
      exact h.dataFd_eq d ev hev

theorem register (h : s.Inv) (fd : ℤ) (events : UInt32) (context : Option Context) :
    (s.register fd ⟨events, fd⟩ context).Inv := by
  refine h.update ?_ (fun ev hev => ?_) fun d hd => Function.update_of_ne hd _ _
  · rw [if_neg (Option.some_ne_none _), Function.update_self]
  · cases hev
    rfl

theorem unregister (h : s.Inv) (fd : ℤ) : (s.unregister fd).Inv :=
  h.update rfl (fun _ hev => by cases hev) fun _ _ => rfl

/-- **A harmless call keeps the invariant.** -/
theorem perform (h : s.Inv) {call : PollerCall Context} (hc : s.Harmless call) :
    (s.perform call).1.Inv := by
  have ho := perform_outcome h.epollFd_nonneg call
  generalize s.perform call = r at ho ⊢
  cases ho with
  | refused e _ => exact h
  | registered fd events context _ => exact h.register fd events context
  | removed fd _ => exact h.unregister fd
  | edited fd context e hiff => exact (edit_of_eq (hiff.mp hc)).symm ▸ h

end Inv

/-- A poller that has just been made. -/
theorem inv_of_create {epollCreate1 : ℤ} {errno : ℕ} {p : EpollPoller Context}
    (hp : EpollPoller.create epollCreate1 errno = .ok p) : Inv { poller := p } := by
  unfold EpollPoller.create at hp
  split at hp
  · cases hp
  · rename_i hneg
    cases hp
    exact ⟨Int.not_lt.mp hneg, rfl, fun fd reg hreg => by cases hreg⟩

/-- `epoll_fd_` is set once. -/
theorem perform_epollFd {s : Polling Context} (h : 0 ≤ s.poller.epollFd)
    (call : PollerCall Context) : 0 ≤ (s.perform call).1.poller.epollFd := by
  have ho := perform_outcome h call
  generalize s.perform call = r at ho ⊢
  cases ho <;> exact h

/-- **A call that throws changes nothing exactly if it is harmless.** -/
theorem throwsChangeNothing_iff {s : Polling Context} (h : 0 ≤ s.poller.epollFd)
    (call : PollerCall Context) : s.ThrowsChangeNothing call ↔ s.Harmless call := by
  have ho := perform_outcome h call
  unfold ThrowsChangeNothing
  generalize s.perform call = r at ho ⊢
  cases ho with
  | refused e hc => exact iff_of_true (fun _ _ => rfl) hc
  | registered fd events context hc => exact iff_of_true (fun _ he => by cases he) hc
  | removed fd hc => exact iff_of_true (fun _ he => by cases he) hc
  | edited fd context e hiff =>
    have hsame : (s.edit fd context).poller.fdToContext = s.poller.fdToContext
        ↔ s.poller.fdToContext fd = context :=
      Function.update_eq_self_iff.trans eq_comm
    rw [hiff, ← hsame]
    exact ⟨fun hall => hall e rfl, fun heq _ _ => heq⟩

/-- **When the map agrees with what is registered.** Every call that throws leaves the map as it
was, and in every state the map is what is registered and `poll` reports it, exactly if in each
call that `epoll_ctl` refuses the edit of the map was none. -/
theorem exact_iff {epollCreate1 : ℤ} {errno : ℕ} {p : EpollPoller Context}
    (hp : EpollPoller.create epollCreate1 errno = .ok p) (calls : List (PollerCall Context)) :
    (machine.Along ThrowsChangeNothing { poller := p } calls
        ∧ machine.Always Exact { poller := p } calls)
      ↔ machine.Along Harmless { poller := p } calls := by
  have hstart := inv_of_create hp
  have hthrows : machine.Along ThrowsChangeNothing { poller := p } calls
      ↔ machine.Along Harmless { poller := p } calls := by
    refine Machine.along_iff_along (I := fun s => 0 ≤ s.poller.epollFd) ?_ ?_
      hstart.epollFd_nonneg
    · intro s call r h hr
      cases hr
      exact perform_epollFd h call
    · intro s call r h _
      exact throwsChangeNothing_iff h call
  refine ⟨fun h => hthrows.mp h.1, fun h => ⟨hthrows.mpr h, ?_⟩⟩
  refine Machine.always_of_along (fun _ hI => hI.exact) ?_ hstart h
  intro s call r hI hc hr
  cases hr
  exact hI.perform hc

/-- A descriptor that is added again, with another context: `epoll_ctl` fails with `EEXIST`. -/
def addedTwice : List (PollerCall ℕ) :=
  [.addFd 5 EventMask.eventRead (some 1) none, .addFd 5 EventMask.eventRead (some 2) (some 17)]

/-- **The second call throws, and its context is in the map.** -/
theorem addedTwice_not_exact :
    EpollPoller.create 3 0 = .ok ({ epollFd := 3 } : EpollPoller ℕ) ∧
    ¬ (machine.Along ThrowsChangeNothing { poller := { epollFd := 3 } } addedTwice
      ∧ machine.Always Exact { poller := { epollFd := 3 } } addedTwice) := by
  refine ⟨rfl, fun h => ?_⟩
  have hlast := (h.2.2 _ rfl).2 _ rfl
  cases congrFun hlast.map_eq 5

/-- The condition on that run. -/
theorem addedTwice_exact_iff :
    (machine.Along ThrowsChangeNothing { poller := { epollFd := 3 } } addedTwice
        ∧ machine.Always Exact { poller := { epollFd := 3 } } addedTwice)
      ↔ machine.Along Harmless { poller := { epollFd := 3 } } addedTwice :=
  exact_iff (rfl : EpollPoller.create 3 0 = .ok ({ epollFd := 3 } : EpollPoller ℕ)) addedTwice

end Polling
