import HttpServer.Machine
import HttpServer.WebsocketSession

/-!
# The end of a WebSocket session

`WebSocketSession` of `application/websocket/websocket_session.cpp` in steps: `OnData` appends its
data, each turn of the loop of `ProcessFrames` is a step, and so is the `Close` behind `on_close_`.
A call of `SendText`, `SendBinary`, `SendPing`, `SendPong` or `Close` may come at any time, also
between two turns of the loop, which is where a callback makes it. The last call is that of the
destructor. Callbacks return.

There is nothing that remembers that a CLOSE frame has been sent, and the destructor sends one in
any case. So it is the only one exactly if nothing before it has sent one:
`nothing_follows_close_iff`.
-/

namespace FrameCodec

/-- `EncodeText`. -/
def encodeText (text : ByteVector) : Bytes := encodeData text .text

/-- `EncodeBinary`. -/
def encodeBinary (data : ByteVector) : Bytes := encodeData data .binary

/-- `EncodePing`. -/
def encodePing : Bytes := encodeData ⟨[], Nat.zero_le _⟩ .ping

/-- The first octet of what is encoded. -/
theorem head_encode (f : Frame) :
    ∃ rest, encode f
      = ((if f.fin then 0x80 else 0x00) ||| (f.opcode.value &&& 0x0F)) :: rest := by
  rw [WireFrame.encode_eq, WireFrame.encodeHeader_eq, List.cons_append]
  exact ⟨_, rfl⟩

/-- Its low bits are the opcode. -/
theorem opcode_octet (fin : Bool) (c : UInt8) :
    ((if fin then 0x80 else 0x00) ||| (c &&& 0x0F)) &&& 0x0F = c &&& 0x0F := by
  obtain ⟨⟨c⟩⟩ := c
  revert c fin
  decide +kernel

end FrameCodec

/-! ## The source -/

/-- Where a session is in `OnData`. -/
inductive SessionPoint
  | idle
  /-- At the head of the loop of `ProcessFrames`. -/
  | looping
  /-- Behind `on_close_`, in front of `Close`. -/
  | closing
  | destroyed
  deriving DecidableEq

/-- Which callbacks are set. -/
structure SessionCallbacks where
  onMessage : Bool
  onBinary : Bool
  onClose : Bool

/-- A session, and what it has done so far. -/
structure LiveSession where
  recvBuffer : Bytes := []
  point : SessionPoint := .idle
  outputs : List SessionOutput := []
  deriving DecidableEq

/-- What happens to a session. -/
inductive SessionAction
  /-- `OnData` up to the loop. -/
  | onData (data : Bytes)
  /-- `OnData` goes on. -/
  | next
  | sendText (text : ByteVector)
  | sendBinary (data : ByteVector)
  | sendPing
  | sendPong
  | close (code : UInt16) (reason : { reason : Bytes // reason.length + 2 ≤ vectorMaxSize })
  /-- The destructor. -/
  | destroy
  deriving DecidableEq

namespace LiveSession

variable (callbacks : SessionCallbacks) (s : LiveSession)

/-- The session does something, and is at this point. -/
def emit (outputs : List SessionOutput) (point : SessionPoint) : LiveSession :=
  { s with outputs := s.outputs ++ outputs, point }

/-- What `Close` does. -/
def closeOutputs (code : UInt16) (reason : Bytes) (h : reason.length + 2 ≤ vectorMaxSize) :
    List SessionOutput :=
  [.send (FrameCodec.encodeClose code reason h), .closeConnection]

theorem nil_fits : ([] : Bytes).length + 2 ≤ vectorMaxSize := by decide

theorem invalidOpcode_fits : (lit "Invalid opcode").length + 2 ≤ vectorMaxSize := by decide

/-- The `switch` over the opcode of a frame. -/
def handleFrame (frame : Frame) : LiveSession :=
  let payload := frame.payload.val
  if frame.opcode = .text then
    s.emit (if callbacks.onMessage then [.message payload] else []) .looping
  else if frame.opcode = .binary then
    s.emit (if callbacks.onBinary then [.binary payload] else []) .looping
  else if frame.opcode = .ping then s.emit [.send FrameCodec.encodePong] .looping
  else if frame.opcode = .pong then s.emit [] .looping
  else if frame.opcode = .close then
    let (code, reason) := closeReason payload
    s.emit (if callbacks.onClose then [.closing code reason] else []) .closing
  else s.emit (closeOutputs 1002 (lit "Invalid opcode") invalidOpcode_fits) .idle

/-- One turn of the loop of `ProcessFrames`. -/
def processFrame : LiveSession :=
  if s.recvBuffer = [] then s.emit [] .idle
  else
    match FrameCodec.decode s.recvBuffer {} with
    | .error _ => s.emit [] .idle
    | .ok (consumed, frame) =>
      if consumed = 0 then s.emit [] .idle
      else { s with recvBuffer := s.recvBuffer.drop consumed }.handleFrame callbacks frame

/-- A call that sends a frame. -/
def send (frame : Bytes) : Option LiveSession :=
  if s.point = .destroyed then none else some (s.emit [.send frame] s.point)

/-- One step. -/
def step : SessionAction → Option LiveSession
  | .onData data =>
    if s.point = .idle then
      some { s with recvBuffer := s.recvBuffer ++ data, point := .looping }
    else none
  | .next =>
    match s.point with
    | .looping => some (s.processFrame callbacks)
    | .closing => some (s.emit (closeOutputs 1000 [] nil_fits) .idle)
    | _ => none
  | .sendText text => s.send (FrameCodec.encodeText text)
  | .sendBinary data => s.send (FrameCodec.encodeBinary data)
  | .sendPing => s.send FrameCodec.encodePing
  | .sendPong => s.send FrameCodec.encodePong
  | .close code reason =>
    if s.point = .destroyed then none
    else some (s.emit (closeOutputs code reason.val reason.property) s.point)
  | .destroy =>
    if s.point = .idle then some (s.emit (closeOutputs 1000 [] nil_fits) .destroyed) else none

end LiveSession

/-- A session as a machine; its steps have no results. -/
def liveSession (callbacks : SessionCallbacks) : Machine LiveSession SessionAction Unit :=
  ⟨fun s a => (s.step callbacks a).map fun s => (s, ())⟩

/-! ## What should hold -/

namespace SessionOutput

/-- A frame is handed to the connection. -/
def isSend : SessionOutput → Bool
  | .send _ => true
  | _ => false

/-- A CLOSE frame is handed to the connection. -/
def isCloseFrame : SessionOutput → Bool
  | .send (byte0 :: _) => byte0 &&& 0x0F == 0x08
  | _ => false

/-- `on_close_` is called. -/
def isClosing : SessionOutput → Bool
  | .closing _ _ => true
  | _ => false

/-- `on_message_` or `on_binary_` is called. -/
def isMessage : SessionOutput → Bool
  | .message _ => true
  | .binary _ => true
  | _ => false

/-- A frame is a CLOSE frame if its opcode says so. -/
theorem isCloseFrame_encodeData (payload : ByteVector) (opcode : Opcode) :
    (send (FrameCodec.encodeData payload opcode)).isCloseFrame
      = (opcode.value &&& 0x0F == 0x08) := by
  obtain ⟨rest, hencode⟩ := FrameCodec.head_encode
    { fin := true, opcode, mask := false, payloadLen := .ofNat payload.val.length, payload }
  rw [FrameCodec.encodeData, hencode, isCloseFrame, FrameCodec.opcode_octet]

end SessionOutput

namespace LiveSession

variable (s : LiveSession)

/-- **Nothing follows a CLOSE frame**: no frame comes behind one, and no message is announced
behind a call of `on_close_`. -/
def NothingFollowsClose : Prop :=
  s.outputs.Pairwise fun o o' =>
    (o.isCloseFrame = true → o'.isSend = false) ∧ (o.isClosing = true → o'.isMessage = false)

instance : Decidable s.NothingFollowsClose :=
  inferInstanceAs (Decidable (List.Pairwise _ _))

/-- The frame that the loop is about to take off the buffer is a message, a ping or a pong. -/
def FrameKeepsOpen : Prop :=
  ∀ consumed frame, FrameCodec.decode s.recvBuffer {} = .ok (consumed, frame) → consumed ≠ 0 →
    frame.opcode = .text ∨ frame.opcode = .binary ∨ frame.opcode = .ping ∨ frame.opcode = .pong

/-- **A step that keeps the session open**: it is no call of `Close` or the destructor, and the
loop meets no frame that closes the session. -/
def KeepsOpen : SessionAction → Prop
  | .close _ _ => False
  | .destroy => False
  | .next => s.point = .looping → s.FrameKeepsOpen
  | _ => True

/-- Nothing has closed the session. -/
structure StillOpen : Prop where
  quiet : ∀ o ∈ s.outputs, o.isCloseFrame = false ∧ o.isClosing = false
  not_closing : s.point ≠ .closing

/-- A CLOSE frame has been sent, or is the next thing to be sent. -/
def Closed : Prop := (∃ o ∈ s.outputs, o.isCloseFrame = true) ∨ s.point = .closing

/-! ## One step -/

variable {s} {callbacks : SessionCallbacks} {t : LiveSession}

theorem closeOutputs_isCloseFrame (code : UInt16) (reason : Bytes)
    (h : reason.length + 2 ≤ vectorMaxSize) :
    ∃ o ∈ closeOutputs code reason h, o.isCloseFrame = true :=
  ⟨_, List.mem_cons_self, SessionOutput.isCloseFrame_encodeData _ _⟩

/-- What closes nothing keeps the session open. -/
theorem StillOpen.emit (h : s.StillOpen) {outputs : List SessionOutput} {point : SessionPoint}
    (hquiet : ∀ o ∈ outputs, o.isCloseFrame = false ∧ o.isClosing = false)
    (hpoint : point ≠ .closing) : (s.emit outputs point).StillOpen where
  quiet o hmem := (List.mem_append.mp hmem).elim (h.quiet o) (hquiet o)
  not_closing := hpoint

theorem StillOpen.emit_nil (h : s.StillOpen) {point : SessionPoint} (hpoint : point ≠ .closing) :
    (s.emit [] point).StillOpen :=
  h.emit (fun _ hmem => absurd hmem List.not_mem_nil) hpoint

/-- A frame that is not a CLOSE frame may be sent. -/
theorem StillOpen.emit_data (h : s.StillOpen) {payload : ByteVector} {opcode : Opcode}
    (hopcode : (opcode.value &&& 0x0F == 0x08) = false) {point : SessionPoint}
    (hpoint : point ≠ .closing) :
    (s.emit [.send (FrameCodec.encodeData payload opcode)] point).StillOpen := by
  refine h.emit (fun o hmem => ?_) hpoint
  obtain rfl := List.mem_singleton.mp hmem
  exact ⟨(SessionOutput.isCloseFrame_encodeData payload opcode).trans hopcode, rfl⟩

/-- A call that sends such a frame keeps the session open. -/
theorem StillOpen.send (h : s.StillOpen) {payload : ByteVector} {opcode : Opcode}
    (hopcode : (opcode.value &&& 0x0F == 0x08) = false)
    (hsend : s.send (FrameCodec.encodeData payload opcode) = some t) : t.StillOpen := by
  obtain ⟨-, hsend⟩ := Option.ite_none_left_eq_some.mp hsend
  cases hsend
  exact h.emit_data hopcode h.not_closing

/-- Calling a callback for a message does. -/
theorem StillOpen.emit_callback (h : s.StillOpen) {isSet : Bool} {output : SessionOutput}
    (houtput : output.isCloseFrame = false ∧ output.isClosing = false) :
    (s.emit (if isSet then [output] else []) .looping).StillOpen := by
  refine h.emit (fun o hmem => ?_) (by decide)
  cases isSet with
  | false => exact absurd hmem List.not_mem_nil
  | true =>
    obtain rfl := List.mem_singleton.mp hmem
    exact houtput

/-- **A frame that does not close the session.** -/
theorem StillOpen.handleFrame (h : s.StillOpen) {frame : Frame}
    (hframe : frame.opcode = .text ∨ frame.opcode = .binary ∨ frame.opcode = .ping
      ∨ frame.opcode = .pong) : (s.handleFrame callbacks frame).StillOpen := by
  unfold LiveSession.handleFrame
  rcases hframe with hop | hop | hop | hop
  · rw [if_pos hop]
    exact h.emit_callback ⟨rfl, rfl⟩
  · rw [if_neg (by rw [hop]; decide), if_pos hop]
    exact h.emit_callback ⟨rfl, rfl⟩
  · rw [if_neg (by rw [hop]; decide), if_neg (by rw [hop]; decide), if_pos hop]
    exact h.emit_data (by decide) (by decide)
  · rw [if_neg (by rw [hop]; decide), if_neg (by rw [hop]; decide), if_neg (by rw [hop]; decide),
      if_pos hop]
    exact h.emit_nil (by decide)

/-- **A frame of any other kind closes it.** -/
theorem closed_handleFrame {frame : Frame}
    (hframe : ¬ (frame.opcode = .text ∨ frame.opcode = .binary ∨ frame.opcode = .ping
      ∨ frame.opcode = .pong)) : (s.handleFrame callbacks frame).Closed := by
  simp only [not_or] at hframe
  obtain ⟨htext, hbinary, hping, hpong⟩ := hframe
  unfold handleFrame
  rw [if_neg htext, if_neg hbinary, if_neg hping, if_neg hpong]
  split
  · exact Or.inr rfl
  · obtain ⟨o, hmem, ho⟩ := closeOutputs_isCloseFrame 1002 (lit "Invalid opcode") invalidOpcode_fits
    exact Or.inl ⟨o, List.mem_append_right _ hmem, ho⟩

/-- One turn of the loop. -/
theorem processFrame_cases (s : LiveSession) (callbacks : SessionCallbacks) :
    s.processFrame callbacks = s.emit [] .idle ∧ s.FrameKeepsOpen
      ∨ ∃ consumed frame, FrameCodec.decode s.recvBuffer {} = .ok (consumed, frame)
        ∧ consumed ≠ 0 ∧ s.processFrame callbacks
          = { s with recvBuffer := s.recvBuffer.drop consumed }.handleFrame callbacks frame := by
  unfold processFrame FrameKeepsOpen
  split
  · rename_i hnil
    refine Or.inl ⟨rfl, fun consumed frame hdec hne => ?_⟩
    rw [hnil] at hdec
    cases hdec
    exact absurd rfl hne
  · split
    · rename_i hdec
      refine Or.inl ⟨rfl, fun consumed frame hdec' => ?_⟩
      rw [hdec] at hdec'
      cases hdec'
    · rename_i consumed frame hdec
      split
      · rename_i hzero
        refine Or.inl ⟨rfl, fun consumed' frame' hdec' hne => ?_⟩
        rw [hdec] at hdec'
        cases hdec'
        exact absurd hzero hne
      · rename_i hne
        exact Or.inr ⟨consumed, frame, hdec, hne, rfl⟩

/-- **A step that keeps an open session open.** -/
theorem StillOpen.step (h : s.StillOpen) {a : SessionAction} (ha : s.KeepsOpen a)
    (hstep : s.step callbacks a = some t) : t.StillOpen := by
  cases a with
  | onData data =>
    obtain ⟨-, hstep⟩ := Option.ite_none_right_eq_some.mp hstep
    cases hstep
    exact ⟨h.quiet, SessionPoint.noConfusion⟩
  | next =>
    rw [LiveSession.step] at hstep
    cases hpoint : s.point with
    | looping =>
      rw [hpoint] at hstep
      cases hstep
      rcases processFrame_cases s callbacks with ⟨hidle, -⟩ | ⟨consumed, frame, hdec, hne, hframe⟩
      · rw [hidle]
        exact h.emit_nil (by decide)
      · rw [hframe]
        have hopen : StillOpen { s with recvBuffer := s.recvBuffer.drop consumed } :=
          ⟨h.quiet, h.not_closing⟩
        exact hopen.handleFrame (ha hpoint consumed frame hdec hne)
    | closing => exact absurd hpoint h.not_closing
    | idle =>
      rw [hpoint] at hstep
      cases hstep
    | destroyed =>
      rw [hpoint] at hstep
      cases hstep
  | sendText text => exact h.send (by decide) hstep
  | sendBinary data => exact h.send (by decide) hstep
  | sendPing => exact h.send (by decide) hstep
  | sendPong => exact h.send (by decide) hstep
  | close code reason => exact ha.elim
  | destroy => exact ha.elim

/-- What has been sent stays sent. -/
theorem Closed.emit {outputs : List SessionOutput} {point : SessionPoint}
    (h : ∃ o ∈ s.outputs, o.isCloseFrame = true) : (s.emit outputs point).Closed := by
  obtain ⟨o, hmem, ho⟩ := h
  exact Or.inl ⟨o, List.mem_append_left _ hmem, ho⟩

/-- `Close` sends a CLOSE frame. -/
theorem closed_emit_close (code : UInt16) (reason : Bytes)
    (h : reason.length + 2 ≤ vectorMaxSize) (point : SessionPoint) :
    (s.emit (closeOutputs code reason h) point).Closed := by
  obtain ⟨o, hmem, ho⟩ := closeOutputs_isCloseFrame code reason h
  exact Or.inl ⟨o, List.mem_append_right _ hmem, ho⟩

/-- **Any other step closes the session.** -/
theorem closed_of_step {a : SessionAction} (ha : ¬ s.KeepsOpen a)
    (hstep : s.step callbacks a = some t) : t.Closed := by
  cases a with
  | next =>
    have hpoint : s.point = .looping := by
      by_contra hno
      exact ha fun hyes => absurd hyes hno
    rw [step, hpoint] at hstep
    cases hstep
    rcases processFrame_cases s callbacks with ⟨-, hkeeps⟩ | ⟨consumed, frame, hdec, hne, hframe⟩
    · exact absurd (fun _ => hkeeps) ha
    · rw [hframe]
      refine closed_handleFrame fun hopcode => ha fun _ consumed' frame' hdec' _ => ?_
      rw [hdec] at hdec'
      cases hdec'
      exact hopcode
  | close code reason =>
    obtain ⟨-, hstep⟩ := Option.ite_none_left_eq_some.mp hstep
    cases hstep
    exact closed_emit_close code reason.val reason.property s.point
  | destroy =>
    obtain ⟨-, hstep⟩ := Option.ite_none_right_eq_some.mp hstep
    cases hstep
    exact closed_emit_close 1000 [] nil_fits .destroyed
  | _ => exact absurd trivial ha

theorem handleFrame_eq_emit (s : LiveSession) (callbacks : SessionCallbacks) (frame : Frame) :
    ∃ outputs point, s.handleFrame callbacks frame = s.emit outputs point := by
  unfold handleFrame
  split_ifs <;> exact ⟨_, _, rfl⟩

/-- A session that is not open any more stays so in a turn of the loop. -/
theorem closed_processFrame (h : ∃ o ∈ s.outputs, o.isCloseFrame = true) :
    (s.processFrame callbacks).Closed := by
  rcases processFrame_cases s callbacks with ⟨hidle, -⟩ | ⟨consumed, frame, -, -, hframe⟩
  · rw [hidle]
    exact Closed.emit h
  · obtain ⟨outputs, point, hemit⟩ := handleFrame_eq_emit
      { s with recvBuffer := s.recvBuffer.drop consumed } callbacks frame
    rw [hframe, hemit]
    exact Closed.emit (s := { s with recvBuffer := s.recvBuffer.drop consumed }) h

/-- **A session that is not open any more stays so.** -/
theorem Closed.step (h : s.Closed) {a : SessionAction} (hstep : s.step callbacks a = some t) :
    t.Closed := by
  have hsend : ∀ frame, s.send frame = some t → t.Closed := by
    intro frame hsend
    obtain ⟨-, hsend⟩ := Option.ite_none_left_eq_some.mp hsend
    cases hsend
    exact h.elim Closed.emit Or.inr
  cases a with
  | onData data =>
    obtain ⟨hidle, hstep⟩ := Option.ite_none_right_eq_some.mp hstep
    cases hstep
    refine h.elim Or.inl fun hclosing => ?_
    rw [hidle] at hclosing
    cases hclosing
  | next =>
    rw [LiveSession.step] at hstep
    cases hpoint : s.point with
    | looping =>
      rw [hpoint] at hstep
      cases hstep
      refine h.elim closed_processFrame fun hclosing => ?_
      rw [hpoint] at hclosing
      cases hclosing
    | closing =>
      rw [hpoint] at hstep
      cases hstep
      exact closed_emit_close 1000 [] nil_fits .idle
    | idle =>
      rw [hpoint] at hstep
      cases hstep
    | destroyed =>
      rw [hpoint] at hstep
      cases hstep
  | sendText text => exact hsend _ hstep
  | sendBinary data => exact hsend _ hstep
  | sendPing => exact hsend _ hstep
  | sendPong => exact hsend _ hstep
  | close code reason => exact closed_of_step (a := .close code reason) not_false hstep
  | destroy => exact closed_of_step (a := .destroy) not_false hstep

/-! ## Runs -/

/-- **The destructor's frame is the only one of its kind** if the session has been open till
then, and comes behind another one otherwise. -/
theorem nothingFollowsClose_destroy_iff (h : s.StillOpen ∨ s.Closed)
    (hstep : s.step callbacks .destroy = some t) : t.NothingFollowsClose ↔ s.StillOpen := by
  obtain ⟨hidle, hstep⟩ := Option.ite_none_right_eq_some.mp hstep
  cases hstep
  unfold NothingFollowsClose
  rw [emit, List.pairwise_append]
  constructor
  · rintro ⟨-, -, hafter⟩
    refine h.elim id fun hclosed => ?_
    rcases hclosed with ⟨o, hmem, ho⟩ | hclosing
    · have hlast := (hafter o hmem _ List.mem_cons_self).1 ho
      cases hlast
    · rw [hidle] at hclosing
      cases hclosing
  · intro hopen
    refine ⟨?_, ?_, fun o hmem o' _ => ?_⟩
    · refine List.Pairwise.imp_of_mem (fun hmem _ _ => ?_)
        (List.pairwise_of_forall fun _ _ => trivial)
      obtain ⟨hframe, hclosing⟩ := hopen.quiet _ hmem
      exact ⟨fun ho => absurd (hframe.symm.trans ho) Bool.false_ne_true,
        fun ho => absurd (hclosing.symm.trans ho) Bool.false_ne_true⟩
    · exact List.pairwise_pair.mpr ⟨fun _ => rfl, fun ho => absurd ho Bool.false_ne_true⟩
    · obtain ⟨hframe, hclosing⟩ := hopen.quiet o hmem
      exact ⟨fun ho => absurd (hframe.symm.trans ho) Bool.false_ne_true,
        fun ho => absurd (hclosing.symm.trans ho) Bool.false_ne_true⟩

/-- **When nothing follows a CLOSE frame.** In every run of a session that ends with its
destructor, no frame is sent behind a CLOSE frame and no message announced behind a call of
`on_close_`, exactly if nothing before the destructor closes the session: `Close` is not called,
and no frame arrives but messages, pings and pongs. -/
theorem nothing_follows_close_iff (callbacks : SessionCallbacks) (actions : List SessionAction)
    {s : LiveSession} {os : List Unit}
    (hrun : (liveSession callbacks).run {} (actions ++ [.destroy]) = some (s, os)) :
    s.NothingFollowsClose ↔ (liveSession callbacks).Along KeepsOpen {} actions := by
  obtain ⟨t, os', os'', hactions, hdestroy, -⟩ := Machine.run_append_eq_some.mp hrun
  obtain ⟨r, rest, hlast, hnil, -⟩ := Machine.run_cons_eq_some.mp hdestroy
  cases hnil
  obtain ⟨s', hstep, heq⟩ := Option.map_eq_some_iff.mp hlast
  cases heq
  have hstart : StillOpen {} := ⟨fun _ hmem => absurd hmem List.not_mem_nil, by decide⟩
  have hend := Machine.run_of_along (M := liveSession callbacks) (I := StillOpen) (L := Closed)
    (C := KeepsOpen)
    (fun s a r hopen ha hr => by
      obtain ⟨t, ht, rfl⟩ := Option.map_eq_some_iff.mp hr
      exact hopen.step ha ht)
    (fun s a r _ ha hr => by
      obtain ⟨t, ht, rfl⟩ := Option.map_eq_some_iff.mp hr
      exact closed_of_step ha ht)
    (fun s a r hclosed hr => by
      obtain ⟨t, ht, rfl⟩ := Option.map_eq_some_iff.mp hr
      exact hclosed.step ht)
    hstart hactions
  rw [nothingFollowsClose_destroy_iff (hend.imp And.right And.right) hstep]
  refine ⟨fun hopen => ?_, fun halong => ?_⟩
  · refine hend.elim And.left fun hlost => ?_
    rcases hlost.2 with ⟨o, hmem, ho⟩ | hclosing
    · rw [(hopen.quiet o hmem).1] at ho
      cases ho
    · exact absurd hclosing hopen.not_closing
  · exact hend.elim And.right fun hlost => absurd halong hlost.1

/-! ## A call of `OnData` that nothing comes between -/

end LiveSession

namespace WebSocketSession

variable {σ : Type*} (session : WebSocketSession σ)

/-- The callbacks of a session that are set. -/
def callbacks : SessionCallbacks :=
  ⟨session.onMessage.isSome, session.onBinary.isSome, session.onClose.isSome⟩

/-- The callbacks do not call the session. -/
structure Silent : Prop where
  onMessage : ∀ f ∈ session.onMessage, ∀ text user, (f text user).2 = []
  onBinary : ∀ f ∈ session.onBinary, ∀ payload user, (f payload user).2 = []
  onClose : ∀ f ∈ session.onClose, ∀ code reason user, (f code reason user).2 = []

variable {session}

/-- What a silent callback leaves behind. -/
theorem emit_invoke (w : SessionWorld σ) (call : SessionOutput)
    {callback : Option (σ → σ × List SessionCall)} (h : ∀ f ∈ callback, ∀ user, (f user).2 = [])
    {isSet : Bool} (hset : isSet = callback.isSome) (rest : Bytes) (point : SessionPoint) :
    (⟨rest, .looping, w.outputs⟩ : LiveSession).emit (if isSet then [call] else []) point
      = ⟨rest, point, (w.invoke call callback).outputs⟩ := by
  rw [hset]
  cases callback with
  | none => exact congrArg (LiveSession.mk rest point) (List.append_nil _)
  | some f =>
    show LiveSession.mk rest point (w.outputs ++ [call])
      = ⟨rest, point, w.outputs ++ call :: (f w.user).2.flatMap SessionCall.outputs⟩
    rw [h f rfl w.user]
    rfl

/-- A callback with its arguments is silent if the callback is. -/
theorem silent_map {α : Type*} {callback : Option α} {call : α → σ → σ × List SessionCall}
    (h : ∀ f ∈ callback, ∀ user, (call f user).2 = []) :
    ∀ f ∈ callback.map call, ∀ user, (f user).2 = [] := by
  intro f hf user
  obtain ⟨f', hf', rfl⟩ := Option.map_eq_some_iff.mp hf
  exact h f' hf' user

/-- **A frame is handled the same way**: the loop goes on behind it, or the session is closed,
at once or in the next step. -/
theorem handleFrame_eq (h : session.Silent) (frame : Frame) (w : SessionWorld σ) (rest : Bytes) :
    let s := (⟨rest, .looping, w.outputs⟩ : LiveSession).handleFrame session.callbacks frame
    match session.handleFrame frame w with
    | (true, w') => s = ⟨rest, .looping, w'.outputs⟩
    | (false, w') => s = ⟨rest, .idle, w'.outputs⟩
        ∨ s.step session.callbacks .next = some ⟨rest, .idle, w'.outputs⟩ := by
  unfold handleFrame LiveSession.handleFrame
  dsimp only
  by_cases htext : frame.opcode = .text
  · rw [if_pos htext, if_pos htext]
    exact emit_invoke w _ (silent_map fun f hf => h.onMessage f hf _) Option.isSome_map.symm _ _
  rw [if_neg htext, if_neg htext]
  by_cases hbinary : frame.opcode = .binary
  · rw [if_pos hbinary, if_pos hbinary]
    exact emit_invoke w _ (silent_map fun f hf => h.onBinary f hf _) Option.isSome_map.symm _ _
  rw [if_neg hbinary, if_neg hbinary]
  by_cases hping : frame.opcode = .ping
  · rw [if_pos hping, if_pos hping]
    rfl
  rw [if_neg hping, if_neg hping]
  by_cases hpong : frame.opcode = .pong
  · rw [if_pos hpong, if_pos hpong]
    exact congrArg (LiveSession.mk rest .looping) (List.append_nil _)
  rw [if_neg hpong, if_neg hpong]
  by_cases hclose : frame.opcode = .close
  · rw [if_pos hclose, if_pos hclose]
    obtain ⟨code, reason⟩ := closeReason frame.payload.val
    have hemit := emit_invoke w (.closing code reason)
      (silent_map fun f hf => h.onClose f hf code reason)
      (Option.isSome_map.symm : session.callbacks.onClose = _) rest .closing
    exact Or.inr (congrArg (LiveSession.step session.callbacks · .next) hemit)
  · rw [if_neg hclose, if_neg hclose]
    exact Or.inl rfl

/-- One turn of the loop, by what is found in the buffer. -/
theorem processFrame_eq (s : LiveSession) (callbacks : SessionCallbacks) :
    s.processFrame callbacks = match nextFrame s.recvBuffer with
      | .more => s.emit [] .idle
      | .fail _ => s.emit [] .idle
      | .item frame rest => { s with recvBuffer := rest }.handleFrame callbacks frame := by
  rw [LiveSession.processFrame]
  split
  · rename_i hnil
    rw [hnil, nextFrame_nil]
  · rw [nextFrame]
    cases FrameCodec.decode s.recvBuffer {} with
    | error e => rfl
    | ok r =>
      dsimp only
      split <;> rfl

/-- **`ProcessFrames` is a run of its steps**, for callbacks that do not call the session. -/
theorem run_processFrames (h : session.Silent) (buffer : Bytes) (w : SessionWorld σ) :
    ∃ n os, (liveSession session.callbacks).run ⟨buffer, .looping, w.outputs⟩
        (List.replicate n .next)
      = some (⟨(session.processFrames buffer w).recvBuffer, .idle,
        (session.processFrames buffer w).world.outputs⟩, os) := by
  -- the loop goes on with what is behind the frame
  induction hn : buffer.length using Nat.strongRecOn generalizing buffer w with
  | _ n ih =>
    have hturn : (liveSession session.callbacks).step ⟨buffer, .looping, w.outputs⟩ .next
        = some ((⟨buffer, .looping, w.outputs⟩ : LiveSession).processFrame session.callbacks, ()) :=
      rfl
    rw [processFrame_eq] at hturn
    rw [processFrames_eq]
    cases hnext : nextFrame buffer with
    | more =>
      rw [hnext] at hturn
      refine ⟨1, [()], Machine.run_cons_eq_some.mpr ⟨_, [], hturn, ?_, rfl⟩⟩
      rw [LiveSession.emit, List.append_nil]
      rfl
    | fail e =>
      rw [hnext] at hturn
      refine ⟨1, [()], Machine.run_cons_eq_some.mpr ⟨_, [], hturn, ?_, rfl⟩⟩
      rw [LiveSession.emit, List.append_nil]
      rfl
    | item frame rest =>
      have hlt : rest.length < buffer.length := frameDecoder.length_lt hnext
      rw [hnext] at hturn
      have hhandle := handleFrame_eq h frame w rest
      dsimp only at hturn hhandle ⊢
      rcases hframe : session.handleFrame frame w with ⟨_ | _, w'⟩
      · rw [hframe] at hhandle
        rcases hhandle with hidle | hclosing
        · rw [hidle] at hturn
          exact ⟨1, [()], Machine.run_cons_eq_some.mpr ⟨_, [], hturn, rfl, rfl⟩⟩
        · have hclose : (liveSession session.callbacks).step _ .next
              = some (⟨rest, .idle, w'.outputs⟩, ()) :=
            congrArg (Option.map fun s => (s, ())) hclosing
          exact ⟨2, [(), ()], Machine.run_cons_eq_some.mpr ⟨_, [()], hturn,
            Machine.run_cons_eq_some.mpr ⟨_, [], hclose, rfl, rfl⟩, rfl⟩⟩
      · rw [hframe] at hhandle
        dsimp only at hhandle
        rw [hhandle] at hturn
        obtain ⟨k, os, hrun⟩ := ih rest.length (hn ▸ hlt) rest w' rfl
        exact ⟨k + 1, () :: os, Machine.run_cons_eq_some.mpr ⟨_, os, hturn, hrun, rfl⟩⟩

end WebSocketSession

namespace LiveSession

/-- A session in which a text message and a ping arrive before it is destroyed. -/
theorem nothing_follows_close_ping :
    let callbacks : SessionCallbacks := ⟨true, true, true⟩
    let actions : List SessionAction :=
      [.onData [0x81, 0x01, 0x61, 0x89, 0x00], .next, .sendPong, .next, .next]
    ∃ s os, (liveSession callbacks).run {} (actions ++ [.destroy]) = some (s, os)
      ∧ (s.NothingFollowsClose ↔ (liveSession callbacks).Along KeepsOpen {} actions) := by
  intro callbacks actions
  have hsome : ((liveSession callbacks).run {} (actions ++ [.destroy])).isSome = true := by
    decide +kernel
  obtain ⟨⟨s, os⟩, hrun⟩ := Option.isSome_iff_exists.mp hsome
  exact ⟨s, os, hrun, nothing_follows_close_iff callbacks actions hrun⟩

/-- A session that is closed, with the CLOSE frame of the destructor behind that of `Close`. -/
theorem close_follows_close :
    ∃ s os, (liveSession ⟨true, true, true⟩).run {} [.close 1000 ⟨[], by decide⟩, .destroy]
        = some (s, os) ∧ ¬ s.NothingFollowsClose := by
  have hrun : ((liveSession ⟨true, true, true⟩).run {}
      [.close 1000 ⟨[], by decide⟩, .destroy]).any (fun r => decide ¬ r.1.NothingFollowsClose)
        = true := by
    decide +kernel
  obtain ⟨⟨s, os⟩, hrun, hno⟩ := (Option.any_eq_true _ _).mp hrun
  exact ⟨s, os, hrun, of_decide_eq_true hno⟩

end LiveSession
