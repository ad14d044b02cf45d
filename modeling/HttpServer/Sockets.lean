import HttpServer.Connection
import HttpServer.ConnectionLife
import HttpServer.Threads

/-!
# Socket objects and their descriptors

`SocketImpl` of `core/net/socket.cpp`. An object makes its descriptor, is handed one that other
code has opened, or gets one from `accept`; it can be moved from and to, and closes what it has
when it is assigned to, closed or destroyed. A moved-from object stays behind without a
descriptor and without an io handler.

What is asked of such a class is that a descriptor has one holder as long as it is open
(`Sockets.OneHolder`). The operations see to this by themselves, whatever their order; it takes
only that `create_socket_from_fd` is called with descriptors that are really handed over
(`Sockets.one_holder_iff`). Then every descriptor is closed once, and no call goes through an io
handler that is gone.

The number of a descriptor is used again by the system once it is closed, so that a number alone
does not say which descriptor is meant. The descriptors there have been are kept in the order in
which they were opened, each with how often it was closed, and a number stands for the newest one
that has it: to close a number twice is to close a descriptor twice, or one that somebody else has
got in the meantime. A holder is an object that has the number, or other code. `HolderMove` says
what a step can do to holders and descriptors: nothing, a new descriptor with its holder, one that
is closed and given up, or a second holder for one that is held already. The last happens in
`create_socket_from_fd` only, with a descriptor that nobody has given up (`HandedOver`).

The invariant is `Owned`. Besides the one holder it says that an object with a descriptor has an io
handler, which a moved-from object has not.

The calls on an io handler that are followed are those of the operations, of a move assignment, of
`close` and of the destructor. The constructor from a descriptor asks for the address of the other
end, of a descriptor that it was given a moment before, and `get_error` asks the system itself.
-/

/-! ## The source -/

/-- `SocketType`. -/
inductive SocketType
  | tcp
  | udp
  | unixStream
  | unixDgram
  deriving DecidableEq, Repr

/-- `EOPNOTSUPP`. -/
def eopnotsupp : ℕ := 95

/-- `SocketImpl`. The error is 0 if there is none. -/
structure SocketImpl where
  /-- Whether `io_handler_` points to one. -/
  ioHandler : Bool := true
  type : SocketType
  fd : ℤ
  isConnected : Bool := false
  lastError : ℕ := 0
  deriving DecidableEq, Repr

/-- What an operation does: to the object, what it returns, and the descriptor it hands to the io
handler, if it gets that far. -/
structure SocketAnswer where
  socket : SocketImpl
  succeeds : Bool
  asked : Option ℤ := none
  deriving DecidableEq, Repr

namespace SocketImpl

variable (s : SocketImpl)

/-- `socket_type_to_native`, which throws for Unix sockets. -/
def typeToNative : SocketType → Option (ℕ × ℕ × ℕ)
  | .tcp => some (2, 1, 0)
  | .udp => some (2, 2, 0)
  | .unixStream => none
  | .unixDgram => none

/-- `is_valid`. -/
def isValid : Bool := 0 ≤ s.fd

/-- The object with another error. -/
def fail (err : ℕ) : SocketAnswer := ⟨{ s with lastError := err }, false, none⟩

/-- What most operations are: the descriptor has to be valid, the type the right one and the
address readable, and then the io handler answers, with an error or not. -/
def ask (only : Option SocketType) (address : Bool) (answer : Option ℕ) : SocketAnswer :=
  if !s.isValid then s.fail ebadf
  else if only.any (· ≠ s.type) then s.fail eopnotsupp
  else if !address then s.fail einval
  else ⟨{ s with lastError := answer.getD 0 }, answer.isNone, some s.fd⟩

def bind (address : Bool) (answer : Option ℕ) : SocketAnswer := s.ask none address answer
def listen (answer : Option ℕ) : SocketAnswer := s.ask (some .tcp) true answer
def send (answer : Option ℕ) : SocketAnswer := s.ask none true answer
def recv (answer : Option ℕ) : SocketAnswer := s.ask none true answer
def sendto (address : Bool) (answer : Option ℕ) : SocketAnswer := s.ask (some .udp) address answer
def recvfrom (answer : Option ℕ) : SocketAnswer := s.ask (some .udp) true answer
def setNonblocking (answer : Option ℕ) : SocketAnswer := s.ask none true answer
def getOption (answer : Option ℕ) : SocketAnswer := s.ask none true answer
def setOption (answer : Option ℕ) : SocketAnswer := s.ask none true answer

/-- `accept` up to the new object; `answer` is the error of the io handler. -/
def accept (answer : Option ℕ) : SocketAnswer := s.ask (some .tcp) true answer

/-- `connect`, which takes a connection in progress for a success and leaves its error. Where none
is stored, what the system would be asked for does not matter here. -/
def connectTo (address : Bool) (answer : Option ℕ) : SocketAnswer :=
  let r := connect s.isValid address answer 0
  let asks := s.isValid && address
  ⟨{ s with lastError := r.err, isConnected := s.isConnected || asks && answer.isNone },
    r.accepted, if asks then some s.fd else none⟩

/-- `set_options`: all options are set, and it has failed if one of them has. -/
def setOptions (answers : List (Option ℕ)) (lastSocketError : ℕ) : SocketAnswer :=
  if !s.isValid then s.fail ebadf
  else
    let success := answers.all Option.isNone
    ⟨{ s with lastError := if success then 0 else lastSocketError }, success, some s.fd⟩

/-- `local_address` and `peer_address`, which leave the object as it is. -/
def address (answer : Option ℕ) : SocketAnswer :=
  ⟨s, s.isValid && answer.isNone, if s.isValid then some s.fd else none⟩

/-- The constructor that makes a socket; `result` is what `CreateSocket` answers. -/
def create (type : SocketType) (result : Except ℕ ℕ) : Option SocketImpl :=
  match typeToNative type with
  | none => none
  | some _ =>
    match result with
    | .error _ => none
    | .ok fd => some { type, fd }

/-- The constructor from a descriptor; `connected` is whether `GetPeerAddress` succeeds. -/
def ofFd (fd : ℤ) (type : SocketType) (connected : Bool) : Option SocketImpl :=
  if fd < 0 then none else some { type, fd, isConnected := connected }

/-- What is left of an object that is moved from. -/
def moved : SocketImpl :=
  { s with ioHandler := false, fd := -1, isConnected := false, lastError := 0 }

/-- `close`, behind `CloseSocket`. -/
def closed : SocketImpl :=
  if s.isValid then { s with fd := -1, isConnected := false, lastError := 0 } else s

end SocketImpl

/-- The operations, with what the io handler answers. -/
inductive SocketOperation
  | bind (address : Bool) (answer : Option ℕ)
  | listen (answer : Option ℕ)
  | connect (address : Bool) (answer : Option ℕ)
  | send (answer : Option ℕ)
  | recv (answer : Option ℕ)
  | sendto (address : Bool) (answer : Option ℕ)
  | recvfrom (answer : Option ℕ)
  | setNonblocking (answer : Option ℕ)
  | setOptions (answers : List (Option ℕ)) (lastSocketError : ℕ)
  | getOption (answer : Option ℕ)
  | setOption (answer : Option ℕ)
  | address (answer : Option ℕ)

def SocketImpl.operate (s : SocketImpl) : SocketOperation → SocketAnswer
  | .bind address answer => s.bind address answer
  | .listen answer => s.listen answer
  | .connect address answer => s.connectTo address answer
  | .send answer => s.send answer
  | .recv answer => s.recv answer
  | .sendto address answer => s.sendto address answer
  | .recvfrom answer => s.recvfrom answer
  | .setNonblocking answer => s.setNonblocking answer
  | .setOptions answers lastSocketError => s.setOptions answers lastSocketError
  | .getOption answer => s.getOption answer
  | .setOption answer => s.setOption answer
  | .address answer => s.address answer

/-- **The socket objects of a program**, in the order of their construction and `none` where one
is destroyed; the descriptors there have been, and the numbers of those that other code holds. -/
structure Sockets where
  objects : List (Option SocketImpl) := []
  descriptors : List Descriptor := []
  elsewhere : List ℕ := []
  deriving DecidableEq, Repr

/-- What happens to the objects and the descriptors. -/
inductive SocketStep
  | create (type : SocketType) (result : Except ℕ ℕ)
  | createFromFd (fd : ℤ) (type : SocketType) (connected : Bool)
  | accept (i : ℕ) (result : Except ℕ ℕ) (connected : Bool)
  | moveConstruct (i : ℕ)
  /-- The second object is moved to the first one. -/
  | moveAssign (i j : ℕ)
  | operate (i : ℕ) (operation : SocketOperation)
  | close (i : ℕ)
  | destroy (i : ℕ)
  | openElsewhere (n : ℕ)
  | closeElsewhere (n : ℕ)

namespace Sockets

variable (s : Sockets)

/-- An object that is not destroyed. -/
def live (i : ℕ) : Option SocketImpl := s.objects[i]?.join

def setObject (i : ℕ) (object : Option SocketImpl) : Sockets :=
  { s with objects := s.objects.set i object }

/-- A new object, behind the others. -/
def construct (socket : SocketImpl) : Sockets :=
  { s with objects := s.objects ++ [some socket] }

/-- The kernel makes a descriptor, with a number that is not in use. -/
def opened (n : ℕ) : Option Sockets :=
  if IsOpenNumber s.descriptors n then none
  else some { s with descriptors := ⟨n, 0⟩ :: s.descriptors }

/-- `CloseSocket` on the descriptor of an object that has one. -/
def released (socket : SocketImpl) : Sockets :=
  if socket.isValid then { s with descriptors := closeSocket s.descriptors socket.fd } else s

/-- `accept`: the io handler has answered with an error, or with a descriptor, which a new object
gets. -/
def accept (i : ℕ) (socket : SocketImpl) (result : Except ℕ ℕ) (connected : Bool) :
    Option (Sockets × Bool) :=
  match result with
  | .error err => some (s.setObject i (socket.accept (some err)).socket, false)
  | .ok n =>
    let r := socket.accept none
    let t := s.setObject i r.socket
    if r.succeeds then
      (t.opened n).map fun t =>
        (t.construct { type := socket.type, fd := n, isConnected := connected }, true)
    else some (t, false)

/-- What a step does, and whether it succeeds. -/
def step : SocketStep → Option (Sockets × Bool)
  | .create type result =>
    match SocketImpl.create type result with
    | none => some (s, false)
    | some socket => (s.opened socket.fd.toNat).map fun t => (t.construct socket, true)
  | .createFromFd fd type connected =>
    match SocketImpl.ofFd fd type connected with
    | none => some (s, false)
    | some socket =>
      some ({ s.construct socket with elsewhere := s.elsewhere.erase fd.toNat }, true)
  | .accept i result connected =>
    (s.live i).bind fun socket => s.accept i socket result connected
  | .moveConstruct i =>
    (s.live i).map fun socket => ((s.setObject i (some socket.moved)).construct socket, true)
  | .moveAssign i j =>
    (s.live i).bind fun socket => (s.live j).map fun other =>
      if i = j then (s, true)
      else (((s.released socket).setObject i (some other)).setObject j (some other.moved), true)
  | .operate i operation =>
    (s.live i).map fun socket =>
      let r := socket.operate operation
      (s.setObject i (some r.socket), r.succeeds)
  | .close i =>
    (s.live i).map fun socket => ((s.released socket).setObject i (some socket.closed), true)
  | .destroy i => (s.live i).map fun socket => ((s.released socket).setObject i none, true)
  | .openElsewhere n =>
    (s.opened n).map fun t => ({ t with elsewhere := n :: t.elsewhere }, true)
  | .closeElsewhere n =>
    if n ∈ s.elsewhere then
      some ({ s with
        descriptors := closeSocket s.descriptors n, elsewhere := s.elsewhere.erase n }, true)
    else none

/-- The calls on an io handler that a step makes on a descriptor that an object has had before:
the descriptor, and whether there is an io handler. -/
def calls : SocketStep → List (ℤ × Bool)
  | .accept i _ _ => ((s.live i).bind fun socket =>
      (socket.accept none).asked.map fun fd => (fd, socket.ioHandler)).toList
  | .operate i operation => ((s.live i).bind fun socket =>
      (socket.operate operation).asked.map fun fd => (fd, socket.ioHandler)).toList
  | .moveAssign i j => ((s.live i).bind fun socket =>
      if i ≠ j ∧ socket.isValid then some (socket.fd, socket.ioHandler) else none).toList
  | .close i | .destroy i => ((s.live i).bind fun socket =>
      if socket.isValid then some (socket.fd, socket.ioHandler) else none).toList
  | _ => []

end Sockets

/-- The objects as a machine. -/
def socketObjects : Machine Sockets SocketStep Bool := ⟨Sockets.step⟩

/-! ## Holders -/

/-- Whether an object has a descriptor. -/
def holdsNumber (n : ℕ) (object : Option SocketImpl) : Bool :=
  object.any fun socket => socket.fd = (n : ℤ)

/-- An object with a descriptor has an io handler. -/
def SocketImpl.Equipped (s : SocketImpl) : Prop := 0 ≤ s.fd → s.ioHandler = true

namespace Sockets

variable (s : Sockets)

/-- All objects are equipped that are not destroyed. -/
def AllEquipped (objects : List (Option SocketImpl)) : Prop :=
  ∀ object ∈ objects, ∀ socket ∈ object, SocketImpl.Equipped socket

/-- How many have a descriptor: objects, and other code. -/
def holders (n : ℕ) : ℕ := s.objects.countP (holdsNumber n) + s.elsewhere.count n

/-- **Every descriptor has one holder as long as it is open**, and is not closed twice. -/
structure OneHolder : Prop where
  holders_eq : ∀ n, s.holders n = if IsOpenNumber s.descriptors n then 1 else 0
  closes_le : ∀ d ∈ s.descriptors, d.closes ≤ 1

/-- **The descriptor is handed over** to the object that is made from it: it is one that other
code has. -/
def HandedOver : SocketStep → Prop
  | .createFromFd fd _ _ => 0 ≤ fd → fd.toNat ∈ s.elsewhere
  | _ => True

/-- **The calls are sound**: each goes through an io handler, on a descriptor that is open. -/
def SoundCalls (a : SocketStep) : Prop :=
  ∀ call ∈ s.calls a, call.2 = true ∧ ∃ n : ℕ, call.1 = n ∧ IsOpenNumber s.descriptors n

/-- **What the objects keep**: a number stands for the newest of the descriptors that have it,
and an object with a descriptor has an io handler. -/
structure Owned : Prop extends s.OneHolder where
  newest : s.descriptors.Pairwise fun d e => d.number = e.number → e.closes = 1
  equipped : AllEquipped s.objects

/-- **What becomes of the holders and the descriptors in a step.** -/
inductive HolderMove (s t : Sockets) (handed : Prop) : Prop
  | same (hholders : ∀ n, t.holders n = s.holders n) (hds : t.descriptors = s.descriptors)
    (hhanded : handed)
  | opened (n : ℕ) (hfree : ¬ IsOpenNumber s.descriptors n)
    (hholders : ∀ m, t.holders m = s.holders m + if m = n then 1 else 0)
    (hds : t.descriptors = ⟨n, 0⟩ :: s.descriptors) (hhanded : handed)
  | closed (n : ℕ) (hholders : ∀ m, s.holders m = t.holders m + if m = n then 1 else 0)
    (hds : t.descriptors = closeSocket s.descriptors n) (hhanded : handed)
  | doubled (n : ℕ) (hholders : t.holders n = s.holders n + 1)
    (hds : t.descriptors = s.descriptors) (hnot : ¬ handed)

end Sockets

/-! ## Descriptors that are closed -/

theorem number_eq_of_mem_closeSocket {ds : List Descriptor} {fd : ℤ} {e : Descriptor}
    (h : e ∈ closeSocket ds fd) : e ∈ ds ∨ (e.number : ℤ) = fd := by
  induction ds with
  | nil => cases h
  | cons d ds ih =>
    rw [closeSocket] at h
    split at h
    · rename_i hd
      rcases List.mem_cons.mp h with rfl | hmem
      · exact Or.inr hd
      · exact Or.inl (List.mem_cons_of_mem _ hmem)
    · rcases List.mem_cons.mp h with rfl | hmem
      · exact Or.inl List.mem_cons_self
      · exact (ih hmem).imp_left (List.mem_cons_of_mem _)

/-- Where each number stands for its newest descriptor, and that one is open, closing the number
closes it. -/
structure ClosesOpen (ds : List Descriptor) (n : ℕ) : Prop where
  isOpen_iff : ∀ m, IsOpenNumber (closeSocket ds n) m ↔ IsOpenNumber ds m ∧ m ≠ n
  closes_le : ∀ d ∈ closeSocket ds n, d.closes ≤ 1
  newest : (closeSocket ds n).Pairwise fun d e => d.number = e.number → e.closes = 1

theorem isOpenNumber_cons {d : Descriptor} {ds : List Descriptor} {m : ℕ} :
    IsOpenNumber (d :: ds) m ↔ (d.number = m ∧ d.closes = 0) ∨ IsOpenNumber ds m :=
  List.exists_mem_cons_iff _ _ _

theorem closesOpen {ds : List Descriptor} {n : ℕ} (hopen : IsOpenNumber ds n)
    (hle : ∀ d ∈ ds, d.closes ≤ 1)
    (hnewest : ds.Pairwise fun d e => d.number = e.number → e.closes = 1) : ClosesOpen ds n := by
  induction ds with
  | nil =>
    obtain ⟨d, hd, -⟩ := hopen
    cases hd
  | cons d ds ih =>
    obtain ⟨hhead, htail⟩ := List.pairwise_cons.mp hnewest
    by_cases hd : d.number = n
    · -- the newest one of the number is the open one
      have hrest : ¬ IsOpenNumber ds n := by
        rintro ⟨e, he, henumber, hecloses⟩
        have hone := hhead e he (hd.trans henumber.symm)
        rw [hecloses] at hone
        cases hone
      have hzero : d.closes = 0 := by
        rcases isOpenNumber_cons.mp hopen with ⟨-, hzero⟩ | htail
        · exact hzero
        · exact absurd htail hrest
      have hclose : closeSocket (d :: ds) n = { d with closes := d.closes + 1 } :: ds := by
        rw [closeSocket, if_pos (by rw [hd])]
      refine ⟨fun m => ?_, fun e he => ?_, ?_⟩
      · rw [hclose, isOpenNumber_cons, isOpenNumber_cons,
          or_iff_right fun h => Nat.succ_ne_zero _ h.2]
        constructor
        · intro hm
          refine ⟨Or.inr hm, ?_⟩
          rintro rfl
          exact hrest hm
        · rintro ⟨⟨hm, -⟩ | hm, hne⟩
          · exact absurd (hm.symm.trans hd) hne
          · exact hm
      · rw [hclose] at he
        rcases List.mem_cons.mp he with rfl | he
        · show d.closes + 1 ≤ 1
          omega
        · exact hle e (List.mem_cons_of_mem _ he)
      · rw [hclose]
        exact List.pairwise_cons.mpr ⟨hhead, htail⟩
    · have hne : ¬ (d.number : ℤ) = n := fun h => hd (Int.ofNat.inj h)
      have hopen' : IsOpenNumber ds n := by
        rcases isOpenNumber_cons.mp hopen with ⟨h, -⟩ | h
        · exact absurd h hd
        · exact h
      obtain ⟨hiff, hle', hnewest'⟩ :=
        ih hopen' (fun e he => hle e (List.mem_cons_of_mem _ he)) htail
      have hclose : closeSocket (d :: ds) n = d :: closeSocket ds n := by
        rw [closeSocket, if_neg hne]
      refine ⟨fun m => ?_, fun e he => ?_, ?_⟩
      · rw [hclose, isOpenNumber_cons, isOpenNumber_cons, hiff, or_and_right]
        refine or_congr_left (iff_self_and.mpr ?_)
        rintro ⟨rfl, -⟩
        exact hd
      · rw [hclose] at he
        rcases List.mem_cons.mp he with rfl | he
        · exact hle e List.mem_cons_self
        · exact hle' e he
      · rw [hclose]
        refine List.pairwise_cons.mpr ⟨fun e he henumber => ?_, hnewest'⟩
        rcases number_eq_of_mem_closeSocket he with he | he
        · exact hhead e he henumber
        · exact absurd (henumber.trans (Int.ofNat.inj he)) hd

/-! ## What a step does to the holders -/

/-- A moved-from object has no descriptor. -/
theorem SocketImpl.fd_moved (s : SocketImpl) : s.moved.fd < 0 := Int.negSucc_lt_zero 0

/-- A closed one has none either. -/
theorem SocketImpl.fd_closed (s : SocketImpl) : s.closed.fd < 0 := by
  unfold closed isValid
  split
  · exact Int.negSucc_lt_zero 0
  · rename_i hno
    exact Int.not_le.mp fun hle => hno (decide_eq_true hle)

namespace Sockets

variable {s : Sockets}

theorem live_eq_some_iff {i : ℕ} {socket : SocketImpl} :
    s.live i = some socket ↔ s.objects[i]? = some (some socket) :=
  Option.join_eq_some_iff

theorem holders_setObject {i : ℕ} {socket : SocketImpl} (h : s.live i = some socket)
    (object : Option SocketImpl) (n : ℕ) :
    (s.setObject i object).holders n + (holdsNumber n (some socket)).toNat
      = s.holders n + (holdsNumber n object).toNat := by
  have hcount := Threads.countP_set_add (holdsNumber n) (live_eq_some_iff.mp h) object
  show (s.objects.set i object).countP _ + s.elsewhere.count n + _
    = s.objects.countP _ + s.elsewhere.count n + _
  omega

/-- An object that keeps its descriptor does not change the holders. -/
theorem holders_setObject_of_fd {i : ℕ} {socket socket' : SocketImpl} (h : s.live i = some socket)
    (hfd : socket'.fd = socket.fd) (n : ℕ) :
    (s.setObject i (some socket')).holders n = s.holders n := by
  have hcount := holders_setObject h (some socket') n
  have heq : holdsNumber n (some socket') = holdsNumber n (some socket) := by
    show decide (socket'.fd = n) = decide (socket.fd = n)
    rw [hfd]
  rw [heq] at hcount
  omega

theorem setObject_released (socket : SocketImpl) (i : ℕ) (object : Option SocketImpl) :
    (s.released socket).setObject i object = (s.setObject i object).released socket := by
  unfold released
  split <;> rfl

theorem holders_released (socket : SocketImpl) (n : ℕ) :
    (s.released socket).holders n = s.holders n := by
  unfold released
  split <;> rfl

theorem holders_construct (socket : SocketImpl) (n : ℕ) :
    (s.construct socket).holders n = s.holders n + (holdsNumber n (some socket)).toNat := by
  have hone : (if holdsNumber n (some socket) = true then 1 else 0)
      = (holdsNumber n (some socket)).toNat := by
    cases holdsNumber n (some socket) <;> rfl
  show (s.objects ++ [some socket]).countP _ + s.elsewhere.count n
    = s.objects.countP _ + s.elsewhere.count n + _
  rw [List.countP_append, List.countP_singleton, hone, Nat.add_right_comm]

/-- Whether an object has a descriptor, as a number. -/
theorem toNat_holdsNumber {socket : SocketImpl} {m : ℕ} (h : socket.fd = m) (n : ℕ) :
    (holdsNumber n (some socket)).toNat = if n = m then 1 else 0 := by
  show (decide (socket.fd = n)).toNat = _
  rw [h]
  by_cases hnm : n = m
  · subst hnm
    rw [if_pos rfl, decide_eq_true rfl]
    rfl
  · have hne : ¬ (m : ℤ) = n := fun he => hnm (Int.ofNat.inj he).symm
    rw [if_neg hnm, decide_eq_false hne]
    rfl

theorem holdsNumber_of_invalid {socket : SocketImpl} (h : socket.fd < 0) (n : ℕ) :
    holdsNumber n (some socket) = false :=
  decide_eq_false fun he => absurd h (by rw [he]; exact Int.not_lt.mpr (Int.natCast_nonneg n))

theorem opened_eq_some_iff {n : ℕ} {t : Sockets} :
    s.opened n = some t ↔ ¬ IsOpenNumber s.descriptors n
      ∧ t = { s with descriptors := ⟨n, 0⟩ :: s.descriptors } := by
  rw [opened, Option.ite_none_left_eq_some, Option.some.injEq, eq_comm (a := t)]

/-- Other code opens a descriptor, or an object is made with one. -/
theorem HolderMove.opened_of {n : ℕ} {t t' : Sockets} (h : s.opened n = some t)
    (hds : t'.descriptors = t.descriptors)
    (hholders : ∀ m, t'.holders m = t.holders m + if m = n then 1 else 0) :
    HolderMove s t' True := by
  obtain ⟨hfree, rfl⟩ := opened_eq_some_iff.mp h
  exact .opened n hfree hholders hds trivial

/-- The descriptor of an object is closed, and no object gets it. -/
theorem HolderMove.released_of (socket : SocketImpl) {t : Sockets}
    (hds : t.descriptors = (s.released socket).descriptors)
    (hholders : ∀ n, t.holders n + (holdsNumber n (some socket)).toNat = s.holders n) :
    HolderMove s t True := by
  by_cases hvalid : 0 ≤ socket.fd
  · obtain ⟨n, hn⟩ := Int.eq_ofNat_of_zero_le hvalid
    have hreleased : s.released socket
        = { s with descriptors := closeSocket s.descriptors socket.fd } :=
      if_pos (decide_eq_true hvalid)
    rw [hreleased, hn] at hds
    refine .closed n (fun m => ?_) hds trivial
    rw [← hholders m, toNat_holdsNumber hn]
  · have hreleased : s.released socket = s :=
      if_neg (by rw [SocketImpl.isValid, decide_eq_false hvalid]; exact Bool.false_ne_true)
    rw [hreleased] at hds
    refine .same (fun n => ?_) hds trivial
    rw [← hholders n, holdsNumber_of_invalid (Int.not_le.mp hvalid)]
    rfl

/-- An operation leaves the descriptor with the object. -/
theorem fd_ask (socket : SocketImpl) (only : Option SocketType) (address : Bool)
    (answer : Option ℕ) : (socket.ask only address answer).socket.fd = socket.fd
      ∧ (socket.ask only address answer).socket.ioHandler = socket.ioHandler := by
  unfold SocketImpl.ask
  split
  · exact ⟨rfl, rfl⟩
  · split
    · exact ⟨rfl, rfl⟩
    · split <;> exact ⟨rfl, rfl⟩

theorem fd_operate (socket : SocketImpl) (operation : SocketOperation) :
    (socket.operate operation).socket.fd = socket.fd
      ∧ (socket.operate operation).socket.ioHandler = socket.ioHandler := by
  cases operation with
  | connect address answer => exact ⟨rfl, rfl⟩
  | setOptions answers lastSocketError =>
    show (socket.setOptions answers lastSocketError).socket.fd = _
      ∧ (socket.setOptions answers lastSocketError).socket.ioHandler = _
    unfold SocketImpl.setOptions
    split <;> exact ⟨rfl, rfl⟩
  | address answer => exact ⟨rfl, rfl⟩
  | _ => exact fd_ask socket _ _ _

/-- An object is made from a descriptor. -/
theorem createFromFd_move {fd : ℤ} {type : SocketType} {connected : Bool} {r : Sockets × Bool}
    (hr : s.step (.createFromFd fd type connected) = some r) :
    HolderMove s r.1 (s.HandedOver (.createFromFd fd type connected)) := by
  by_cases hneg : fd < 0
  · have hnone : SocketImpl.ofFd fd type connected = none := if_pos hneg
    rw [step, hnone] at hr
    cases hr
    exact .same (fun _ => rfl) rfl fun hpos => absurd hneg (Int.not_lt.mpr hpos)
  · obtain ⟨n, hn⟩ := Int.eq_ofNat_of_zero_le (Int.not_lt.mp hneg)
    subst hn
    obtain ⟨socket, hsome, hfd⟩ : ∃ socket, SocketImpl.ofFd n type connected = some socket
        ∧ socket.fd = n := ⟨_, if_neg hneg, rfl⟩
    rw [step, hsome] at hr
    cases hr
    -- the object is counted, and the holder that gives the descriptor away is not
    have hcount : ∀ m, (s.objects ++ [some socket]).countP (holdsNumber m)
        = s.objects.countP (holdsNumber m) + if m = n then 1 else 0 := by
      intro m
      rw [List.countP_append, List.countP_singleton, ← toNat_holdsNumber hfd m]
      cases holdsNumber m (some socket) <;> rfl
    by_cases hmem : n ∈ s.elsewhere
    · refine .same (fun m => ?_) rfl fun _ => hmem
      show (s.objects ++ [some socket]).countP (holdsNumber m) + (s.elsewhere.erase n).count m = _
      rw [hcount, List.count_erase, holders]
      have hpos : 0 < s.elsewhere.count n := List.count_pos_iff.mpr hmem
      by_cases hm : m = n
      · subst hm
        rw [if_pos rfl, if_pos (beq_self_eq_true m)]
        omega
      · rw [if_neg hm, if_neg (by simpa using Ne.symm hm)]
        omega
    · refine .doubled n ?_ rfl fun h => hmem (h (Int.natCast_nonneg n))
      show (s.objects ++ [some socket]).countP (holdsNumber n) + (s.elsewhere.erase n).count n = _
      rw [hcount, List.erase_of_not_mem hmem, if_pos rfl, holders]
      omega

/-- **Every step is one of these moves.** -/
theorem step_move {a : SocketStep} {r : Sockets × Bool} (hr : s.step a = some r) :
    HolderMove s r.1 (s.HandedOver a) := by
  cases a with
  | create type result =>
    cases hsocket : SocketImpl.create type result with
    | none =>
      rw [step, hsocket] at hr
      cases hr
      exact .same (fun _ => rfl) rfl trivial
    | some socket =>
      rw [step, hsocket] at hr
      obtain ⟨t, ht, rfl⟩ := Option.map_eq_some_iff.mp hr
      obtain ⟨n, hn⟩ : ∃ n : ℕ, socket.fd = n := by
        unfold SocketImpl.create at hsocket
        split at hsocket
        · cases hsocket
        · split at hsocket
          · cases hsocket
          · cases hsocket
            exact ⟨_, rfl⟩
      rw [hn, Int.toNat_natCast] at ht
      refine HolderMove.opened_of ht rfl fun m => ?_
      rw [holders_construct, toNat_holdsNumber hn]
  | createFromFd fd type connected => exact createFromFd_move hr
  | accept i result connected =>
    obtain ⟨socket, hlive, hr⟩ := Option.bind_eq_some_iff.mp hr
    have hkeep : ∀ answer n,
        (s.setObject i (socket.accept answer).socket).holders n = s.holders n := fun answer n =>
      holders_setObject_of_fd hlive (fd_ask socket _ _ _).1 n
    unfold accept at hr
    split at hr
    · cases hr
      exact .same (hkeep _) rfl trivial
    · dsimp only at hr
      split at hr
      · obtain ⟨t, ht, rfl⟩ := Option.map_eq_some_iff.mp hr
        obtain ⟨hfree, rfl⟩ := opened_eq_some_iff.mp ht
        refine .opened _ hfree (fun m => ?_) rfl trivial
        rw [holders_construct, toNat_holdsNumber rfl]
        exact congrArg (· + _) (hkeep none m)
      · cases hr
        exact .same (hkeep _) rfl trivial
  | moveConstruct i =>
    obtain ⟨socket, hlive, rfl⟩ := Option.map_eq_some_iff.mp hr
    refine .same (fun n => ?_) rfl trivial
    have hset := holders_setObject hlive (some socket.moved) n
    rw [holdsNumber_of_invalid socket.fd_moved] at hset
    rw [holders_construct]
    exact hset
  | moveAssign i j =>
    obtain ⟨socket, hi, hr⟩ := Option.bind_eq_some_iff.mp hr
    obtain ⟨other, hj, rfl⟩ := Option.map_eq_some_iff.mp hr
    split
    · exact .same (fun _ => rfl) rfl trivial
    · rename_i hij
      refine HolderMove.released_of socket rfl fun n => ?_
      have hset := holders_setObject hi (some other) n
      have hj' : (s.setObject i (some other)).live j = some other := by
        rw [live_eq_some_iff] at hj ⊢
        exact (List.getElem?_set_ne hij).trans hj
      have hset' := holders_setObject hj' (some other.moved) n
      rw [holdsNumber_of_invalid other.fd_moved] at hset'
      rw [setObject_released, setObject_released, holders_released]
      simp only [Bool.toNat_false] at hset'
      omega
  | operate i operation =>
    obtain ⟨socket, hlive, rfl⟩ := Option.map_eq_some_iff.mp hr
    exact .same (holders_setObject_of_fd hlive (fd_operate socket operation).1) rfl trivial
  | close i =>
    obtain ⟨socket, hlive, rfl⟩ := Option.map_eq_some_iff.mp hr
    refine HolderMove.released_of socket rfl fun n => ?_
    have hset := holders_setObject hlive (some socket.closed) n
    rw [holdsNumber_of_invalid socket.fd_closed] at hset
    rw [setObject_released, holders_released]
    exact hset
  | destroy i =>
    obtain ⟨socket, hlive, rfl⟩ := Option.map_eq_some_iff.mp hr
    refine HolderMove.released_of socket rfl fun n => ?_
    have hset := holders_setObject hlive none n
    rw [setObject_released, holders_released]
    exact hset
  | openElsewhere n =>
    obtain ⟨t, ht, rfl⟩ := Option.map_eq_some_iff.mp hr
    refine HolderMove.opened_of ht rfl fun m => ?_
    show _ + (n :: t.elsewhere).count m = _ + t.elsewhere.count m + _
    rw [List.count_cons]
    by_cases hm : m = n
    · subst hm
      rw [if_pos (beq_self_eq_true m), if_pos rfl, Nat.add_assoc]
    · rw [if_neg (by simpa using Ne.symm hm), if_neg hm]
      rfl
  | closeElsewhere n =>
    obtain ⟨hmem, hr⟩ := Option.ite_none_right_eq_some.mp hr
    cases hr
    refine .closed n (fun m => ?_) rfl trivial
    show _ + s.elsewhere.count m = _ + (s.elsewhere.erase n).count m + _
    rw [List.count_erase]
    have hpos : 0 < s.elsewhere.count n := List.count_pos_iff.mpr hmem
    by_cases hm : m = n
    · subst hm
      rw [if_pos (beq_self_eq_true m), if_pos rfl]
      show s.objects.countP _ + _ = s.objects.countP _ + _ + _
      omega
    · rw [if_neg (by simpa using Ne.symm hm), if_neg hm]
      rfl

/-! ## Owned descriptors -/

theorem AllEquipped.set {objects : List (Option SocketImpl)} (h : AllEquipped objects)
    {object : Option SocketImpl} (hobject : ∀ socket ∈ object, SocketImpl.Equipped socket) (i : ℕ) :
    AllEquipped (objects.set i object) :=
  Threads.forall_mem_set h hobject i

theorem AllEquipped.concat {objects : List (Option SocketImpl)} (h : AllEquipped objects)
    {socket : SocketImpl} (hsocket : socket.Equipped) : AllEquipped (objects ++ [some socket]) := by
  intro object hmem
  rcases List.mem_append.mp hmem with hmem | hmem
  · exact h object hmem
  · rw [List.mem_singleton.mp hmem]
    exact fun x hx => Option.some.inj hx ▸ hsocket

theorem AllEquipped.of_live {i : ℕ} {socket : SocketImpl} (h : AllEquipped s.objects)
    (hlive : s.live i = some socket) : socket.Equipped :=
  h _ (List.mem_of_getElem? (live_eq_some_iff.mp hlive)) _ rfl

theorem objects_released (socket : SocketImpl) : (s.released socket).objects = s.objects := by
  unfold released
  split <;> rfl

theorem objects_opened {n : ℕ} {t : Sockets} (h : s.opened n = some t) :
    t.objects = s.objects := by
  obtain ⟨-, rfl⟩ := opened_eq_some_iff.mp h
  rfl

theorem equipped_of_invalid {socket : SocketImpl} (h : socket.fd < 0) : socket.Equipped :=
  fun hpos => absurd h (Int.not_lt.mpr hpos)

/-- The objects behind a step are equipped. -/
theorem equipped_step {a : SocketStep} {r : Sockets × Bool} (hr : s.step a = some r)
    (h : AllEquipped s.objects) : AllEquipped r.1.objects := by
  have hsome : ∀ {socket : SocketImpl}, socket.Equipped →
      ∀ x ∈ some socket, SocketImpl.Equipped x := fun hs x hx => Option.some.inj hx ▸ hs
  cases a with
  | create type result =>
    cases hsocket : SocketImpl.create type result with
    | none =>
      rw [step, hsocket] at hr
      cases hr
      exact h
    | some socket =>
      rw [step, hsocket] at hr
      obtain ⟨t, ht, rfl⟩ := Option.map_eq_some_iff.mp hr
      rw [← objects_opened ht] at h
      refine h.concat fun _ => ?_
      unfold SocketImpl.create at hsocket
      split at hsocket
      · cases hsocket
      · split at hsocket <;> cases hsocket
        rfl
  | createFromFd fd type connected =>
    cases hsocket : SocketImpl.ofFd fd type connected with
    | none =>
      rw [step, hsocket] at hr
      cases hr
      exact h
    | some socket =>
      rw [step, hsocket] at hr
      cases hr
      obtain ⟨-, hs⟩ := Option.ite_none_left_eq_some.mp hsocket
      cases hs
      exact h.concat fun _ => rfl
  | accept i result connected =>
    obtain ⟨socket, hlive, hr⟩ := Option.bind_eq_some_iff.mp hr
    have hkeep : ∀ answer, AllEquipped (s.setObject i (socket.accept answer).socket).objects :=
      fun answer => h.set (hsome fun hpos => by
        obtain ⟨hfd, hhandler⟩ := fd_ask socket (some .tcp) true answer
        exact hhandler.trans (h.of_live hlive (hfd ▸ hpos))) i
    unfold accept at hr
    split at hr
    · cases hr
      exact hkeep _
    · dsimp only at hr
      split at hr
      · obtain ⟨t, ht, rfl⟩ := Option.map_eq_some_iff.mp hr
        refine AllEquipped.concat ?_ fun _ => rfl
        rw [objects_opened ht]
        exact hkeep none
      · cases hr
        exact hkeep none
  | moveConstruct i =>
    obtain ⟨socket, hlive, rfl⟩ := Option.map_eq_some_iff.mp hr
    exact (h.set (hsome (equipped_of_invalid socket.fd_moved)) i).concat (h.of_live hlive)
  | moveAssign i j =>
    obtain ⟨socket, hi, hr⟩ := Option.bind_eq_some_iff.mp hr
    obtain ⟨other, hj, rfl⟩ := Option.map_eq_some_iff.mp hr
    split
    · exact h
    · show AllEquipped (((s.released socket).objects.set i (some other)).set j (some other.moved))
      rw [objects_released]
      exact (h.set (hsome (h.of_live hj)) i).set (hsome (equipped_of_invalid other.fd_moved)) j
  | operate i operation =>
    obtain ⟨socket, hlive, rfl⟩ := Option.map_eq_some_iff.mp hr
    obtain ⟨hfd, hhandler⟩ := fd_operate socket operation
    exact h.set (hsome fun hpos => hhandler.trans (h.of_live hlive (hfd ▸ hpos))) i
  | close i =>
    obtain ⟨socket, hlive, rfl⟩ := Option.map_eq_some_iff.mp hr
    show AllEquipped ((s.released socket).objects.set i (some socket.closed))
    rw [objects_released]
    exact h.set (hsome (equipped_of_invalid socket.fd_closed)) i
  | destroy i =>
    obtain ⟨socket, hlive, rfl⟩ := Option.map_eq_some_iff.mp hr
    show AllEquipped ((s.released socket).objects.set i none)
    rw [objects_released]
    exact h.set (fun x hx => by cases hx) i
  | openElsewhere n =>
    obtain ⟨t, ht, rfl⟩ := Option.map_eq_some_iff.mp hr
    show AllEquipped t.objects
    rw [objects_opened ht]
    exact h
  | closeElsewhere n =>
    obtain ⟨-, hr⟩ := Option.ite_none_right_eq_some.mp hr
    cases hr
    exact h

/-- **A step with a descriptor that is handed over keeps the owners.** -/
theorem Owned.step {a : SocketStep} {r : Sockets × Bool} (h : s.Owned) (hc : s.HandedOver a)
    (hr : s.step a = some r) : r.1.Owned := by
  have hequipped := equipped_step hr h.equipped
  cases step_move hr with
  | same hholders hds =>
    exact ⟨⟨fun n => by rw [hholders, hds]; exact h.holders_eq n, hds ▸ h.closes_le⟩,
      hds ▸ h.newest, hequipped⟩
  | opened n hfree hholders hds =>
    refine ⟨⟨fun m => ?_, fun d hd => ?_⟩, ?_, hequipped⟩
    · rw [hholders, hds, h.holders_eq]
      by_cases hm : m = n
      · subst hm
        rw [if_neg hfree, if_pos rfl, if_pos (isOpenNumber_cons.mpr (Or.inl ⟨rfl, rfl⟩))]
      · rw [if_neg hm, Nat.add_zero]
        refine if_congr ?_ rfl rfl
        rw [isOpenNumber_cons, or_iff_right fun hn => hm hn.1.symm]
    · rw [hds] at hd
      rcases List.mem_cons.mp hd with rfl | hd
      · exact Nat.zero_le 1
      · exact h.closes_le d hd
    · rw [hds]
      refine List.pairwise_cons.mpr ⟨fun e he hnumber => ?_, h.newest⟩
      have hle := h.closes_le e he
      have hne : e.closes ≠ 0 := fun hzero => hfree ⟨e, he, hnumber.symm, hzero⟩
      omega
  | closed n hholders hds =>
    have hsum := hholders n
    rw [if_pos rfl, h.holders_eq] at hsum
    have hopen : IsOpenNumber s.descriptors n := by
      by_contra hno
      rw [if_neg hno] at hsum
      cases hsum
    obtain ⟨hiff, hle, hnewest⟩ := closesOpen hopen h.closes_le h.newest
    refine ⟨⟨fun m => ?_, hds ▸ hle⟩, hds ▸ hnewest, hequipped⟩
    have hsum' := hholders m
    rw [h.holders_eq] at hsum'
    rw [hds]
    by_cases hm : m = n
    · subst hm
      rw [if_pos hopen, if_pos rfl] at hsum'
      rw [if_neg fun ho => ((hiff m).mp ho).2 rfl]
      exact (Nat.succ.inj hsum').symm
    · rw [if_neg hm, Nat.add_zero] at hsum'
      rw [← hsum']
      refine if_congr ?_ rfl rfl
      rw [hiff, and_iff_left hm]
  | doubled n hholders hds hnot => exact absurd hc hnot

/-- An object that is made from a descriptor that is not handed over is one holder too many. -/
theorem Owned.not_oneHolder {a : SocketStep} {r : Sockets × Bool} (h : s.Owned)
    (hc : ¬ s.HandedOver a) (hr : s.step a = some r) : ¬ r.1.OneHolder := by
  intro hone
  cases step_move hr with
  | same hholders hds hhanded => exact hc hhanded
  | opened n hfree hholders hds hhanded => exact hc hhanded
  | closed n hholders hds hhanded => exact hc hhanded
  | doubled n hholders hds hnot =>
    have heq := hone.holders_eq n
    rw [hholders, h.holders_eq, hds] at heq
    exact absurd heq (Nat.succ_ne_self _)

/-! ## What is called -/

theorem asked_ask {socket : SocketImpl} {only : Option SocketType} {address : Bool}
    {answer : Option ℕ} {fd : ℤ} (h : (socket.ask only address answer).asked = some fd) :
    fd = socket.fd ∧ 0 ≤ socket.fd := by
  unfold SocketImpl.ask at h
  split at h
  · cases h
  · rename_i hvalid
    have hpos : 0 ≤ socket.fd := by simpa [SocketImpl.isValid] using hvalid
    split at h
    · cases h
    · split at h
      · cases h
      · exact ⟨(Option.some.inj h).symm, hpos⟩

/-- The io handler is asked about the descriptor of the object, if it has one. -/
theorem asked_operate {socket : SocketImpl} {operation : SocketOperation} {fd : ℤ}
    (h : (socket.operate operation).asked = some fd) : fd = socket.fd ∧ 0 ≤ socket.fd := by
  cases operation with
  | connect address answer =>
    obtain ⟨hasks, hfd⟩ := Option.ite_none_right_eq_some.mp h
    exact ⟨(Option.some.inj hfd).symm, of_decide_eq_true (Bool.and_eq_true_iff.mp hasks).1⟩
  | setOptions answers lastSocketError =>
    change (socket.setOptions answers lastSocketError).asked = _ at h
    unfold SocketImpl.setOptions at h
    split at h
    · cases h
    · rename_i hvalid
      exact ⟨(Option.some.inj h).symm, by simpa [SocketImpl.isValid] using hvalid⟩
  | address answer =>
    obtain ⟨hvalid, hfd⟩ := Option.ite_none_right_eq_some.mp h
    exact ⟨(Option.some.inj hfd).symm, of_decide_eq_true hvalid⟩
  | _ => exact asked_ask h

/-- The descriptor of an object is open. -/
theorem Owned.isOpen {i : ℕ} {socket : SocketImpl} (h : s.Owned) (hlive : s.live i = some socket)
    (hpos : 0 ≤ socket.fd) :
    socket.ioHandler = true ∧ ∃ n : ℕ, socket.fd = n ∧ IsOpenNumber s.descriptors n := by
  refine ⟨h.equipped.of_live hlive hpos, ?_⟩
  obtain ⟨n, hn⟩ := Int.eq_ofNat_of_zero_le hpos
  refine ⟨n, hn, ?_⟩
  by_contra hno
  have hzero := h.holders_eq n
  rw [if_neg hno] at hzero
  have hcount : s.objects.countP (holdsNumber n) = 0 := Nat.eq_zero_of_add_eq_zero_right hzero
  exact List.countP_eq_zero.mp hcount _ (List.mem_of_getElem? (live_eq_some_iff.mp hlive))
    (decide_eq_true hn)

/-- **Where the descriptors have owners, calls are sound.** -/
theorem Owned.soundCalls (h : s.Owned) (a : SocketStep) : s.SoundCalls a := by
  -- a call is one on the descriptor of an object
  suffices hcall : ∀ call ∈ s.calls a, ∃ i socket, s.live i = some socket ∧ 0 ≤ socket.fd
      ∧ call = (socket.fd, socket.ioHandler) by
    intro call hmem
    obtain ⟨i, socket, hlive, hpos, rfl⟩ := hcall call hmem
    exact h.isOpen hlive hpos
  have hclose : ∀ {i : ℕ} {p : SocketImpl → Prop} [DecidablePred p] {call : ℤ × Bool},
      (∀ socket, p socket → 0 ≤ socket.fd) →
      call ∈ ((s.live i).bind fun socket =>
        if p socket then some (socket.fd, socket.ioHandler) else none).toList →
      ∃ i socket, s.live i = some socket ∧ 0 ≤ socket.fd
        ∧ call = (socket.fd, socket.ioHandler) := by
    intro i p _ call hp hmem
    obtain ⟨socket, hlive, hcall⟩ := Option.bind_eq_some_iff.mp (Option.mem_toList.mp hmem)
    obtain ⟨hsocket, hcall⟩ := Option.ite_none_right_eq_some.mp hcall
    exact ⟨i, socket, hlive, hp socket hsocket, (Option.some.inj hcall).symm⟩
  have hasked : ∀ {i : ℕ} {asked : SocketImpl → Option ℤ} {call : ℤ × Bool},
      (∀ socket fd, asked socket = some fd → fd = socket.fd ∧ 0 ≤ socket.fd) →
      call ∈ ((s.live i).bind fun socket =>
        (asked socket).map fun fd => (fd, socket.ioHandler)).toList →
      ∃ i socket, s.live i = some socket ∧ 0 ≤ socket.fd
        ∧ call = (socket.fd, socket.ioHandler) := by
    intro i asked call hfd hmem
    obtain ⟨socket, hlive, hcall⟩ := Option.bind_eq_some_iff.mp (Option.mem_toList.mp hmem)
    obtain ⟨fd, hask, rfl⟩ := Option.map_eq_some_iff.mp hcall
    obtain ⟨rfl, hpos⟩ := hfd socket fd hask
    exact ⟨i, socket, hlive, hpos, rfl⟩
  intro call hmem
  cases a with
  | accept i result connected => exact hasked (fun _ _ => asked_ask) hmem
  | operate i operation => exact hasked (fun _ _ => asked_operate) hmem
  | moveAssign i j => exact hclose (fun _ hp => of_decide_eq_true hp.2) hmem
  | close i => exact hclose (fun _ hp => of_decide_eq_true hp) hmem
  | destroy i => exact hclose (fun _ hp => of_decide_eq_true hp) hmem
  | _ => cases hmem

/-! ## Runs -/

theorem owned_start : Owned {} where
  holders_eq _ := rfl
  closes_le _ hd := by cases hd
  newest := List.Pairwise.nil
  equipped _ ho := by cases ho

/-- **When every descriptor has one holder.** For any number of objects that are made, moved,
used, closed and destroyed in any order, with any answers of the io handler: every descriptor has
one holder as long as it is open and none is closed twice, in every state of the run, exactly if
each object that is made from a descriptor is made from one that is handed over. Then every call
goes through an io handler and is on an open descriptor, and at the end all descriptors have been
closed but those of objects that are not destroyed and of other code. -/
theorem one_holder_iff {steps : List SocketStep} {t : Sockets} {replies : List Bool}
    (hr : socketObjects.run {} steps = some (t, replies)) :
    (socketObjects.Always OneHolder {} steps ↔ socketObjects.Along HandedOver {} steps)
      ∧ (socketObjects.Along HandedOver {} steps →
        socketObjects.Along SoundCalls {} steps
          ∧ ∀ d ∈ t.descriptors, d.closes = 1 ∨ 0 < t.holders d.number) := by
  have hstep : ∀ s a r, Owned s → HandedOver s a → socketObjects.step s a = some r → r.1.Owned :=
    fun _ _ _ h hc hr => h.step hc hr
  refine ⟨Machine.always_iff_along (fun _ h => h.toOneHolder) hstep
    (fun _ _ _ h hc hr => h.not_oneHolder hc hr) owned_start, fun halong => ⟨?_, ?_⟩⟩
  · exact Machine.along_of_along hstep (fun _ a _ h _ _ => h.soundCalls a) owned_start halong
  · have howned := (Machine.always_of_along (fun _ h => h) hstep owned_start halong).of_run hr
    intro d hd
    have hle := howned.closes_le d hd
    rcases Nat.eq_zero_or_pos d.closes with hzero | hpos
    · refine Or.inr ?_
      rw [howned.holders_eq, if_pos ⟨d, hd, rfl, hzero⟩]
      exact Nat.one_pos
    · exact Or.inl (Nat.le_antisymm hle hpos)

/-- A listening socket that accepts a client, whose object is moved, used and destroyed. -/
def movedClient : List SocketStep :=
  [.create .tcp (.ok 3), .operate 0 (.bind true none), .operate 0 (.listen none),
    .accept 0 (.ok 4) true, .moveConstruct 1, .operate 1 (.send none), .operate 2 (.send none),
    .destroy 1, .destroy 2, .close 0, .destroy 0]

/-- Both descriptors are closed; the moved-from object has sent nothing. -/
theorem one_holder_movedClient :
    (socketObjects.Always OneHolder {} movedClient ↔ socketObjects.Along HandedOver {} movedClient)
      ∧ (socketObjects.Along HandedOver {} movedClient →
        socketObjects.Along SoundCalls {} movedClient
          ∧ ∀ d ∈ [(⟨4, 1⟩ : Descriptor), ⟨3, 1⟩],
            d.closes = 1 ∨ 0 < (⟨[none, none, none], [⟨4, 1⟩, ⟨3, 1⟩], []⟩ : Sockets).holders
              d.number) := by
  have hr : socketObjects.run {} movedClient = some
      (⟨[none, none, none], [⟨4, 1⟩, ⟨3, 1⟩], []⟩, [true, true, true, true, true, false, true, true,
        true, true, true]) := by decide
  exact one_holder_iff hr

end Sockets
