import HttpServer.WebsocketSession

/-!
# Fragmented messages

A peer may send a message as several frames: the first has the opcode of the message, the
others that of a continuation, and only the last has its final bit set; pings and pongs may
come between them. A `Conversation` is a list of messages cut in this way, with the frames
that carry them, and what the user of a session should see of it are the messages.

The session does not look at the final bit and does not know the opcode of a continuation.
It passes the first fragment on as if it were the message and closes the connection at the
second. So the messages arrive exactly if none of them has a second fragment:
`messages_arrive_iff`.
-/

/-! ## Conversations -/

/-- What a frame carries: a payload, masked with a key or not. -/
structure Fragment where
  payload : ByteVector
  maskingKey : Option UInt32

/-- The frame of a fragment. -/
def Fragment.frame (f : Fragment) (opcode : Opcode) (fin : Bool) : Frame where
  fin := fin
  opcode := opcode
  mask := f.maskingKey.isSome
  payloadLen := .ofNat f.payload.val.length
  maskingKey := f.maskingKey.getD 0
  payload := f.payload

/-- The kinds of control frames that may come between fragments. -/
inductive ControlKind
  | ping
  | pong

def ControlKind.opcode : ControlKind → Opcode
  | .ping => .ping
  | .pong => .pong

/-- A ping or a pong. -/
structure ControlFrame where
  kind : ControlKind
  content : Fragment

def ControlFrame.frame (c : ControlFrame) : Frame := c.content.frame c.kind.opcode true

/-- The kinds of messages. -/
inductive MessageKind
  | text
  | binary
  deriving DecidableEq

def MessageKind.opcode : MessageKind → Opcode
  | .text => .text
  | .binary => .binary

/-- **A message in fragments**: the first one, and the others, each with the control
frames that come before it. -/
structure FragmentedMessage where
  kind : MessageKind
  first : Fragment
  others : List (List ControlFrame × Fragment)

/-- The frames of the fragments behind the first. -/
def continuationFrames : List (List ControlFrame × Fragment) → List Frame
  | [] => []
  | (controls, fragment) :: others =>
    controls.map ControlFrame.frame
      ++ fragment.frame .continuation others.isEmpty :: continuationFrames others

namespace FragmentedMessage

variable (m : FragmentedMessage)

/-- The frames of a message. -/
def frames : List Frame :=
  m.first.frame m.kind.opcode m.others.isEmpty :: continuationFrames m.others

/-- **The message**: its kind, and the payloads of the fragments one after the other. -/
def message : MessageKind × Bytes :=
  (m.kind, m.first.payload.val ++ m.others.flatMap fun o => o.2.payload.val)

end FragmentedMessage

/-- Messages in fragments, each with the control frames before it, and the control frames
behind the last. -/
structure Conversation where
  messages : List (List ControlFrame × FragmentedMessage)
  controls : List ControlFrame

namespace Conversation

variable (c : Conversation)

/-- The frames of a conversation. -/
def frames : List Frame :=
  (c.messages.flatMap fun m => m.1.map ControlFrame.frame ++ m.2.frames)
    ++ c.controls.map ControlFrame.frame

/-- What is sent. -/
def octets : Bytes := c.frames.flatMap FrameCodec.encode

/-- What should arrive. -/
def expected : List (MessageKind × Bytes) := c.messages.map fun m => m.2.message

/-- What is sent for the first message is in front. -/
theorem octets_cons (before : List ControlFrame) (m : FragmentedMessage)
    (messages : List (List ControlFrame × FragmentedMessage)) (controls : List ControlFrame) :
    (Conversation.mk ((before, m) :: messages) controls).octets
      = (before.map ControlFrame.frame ++ m.frames).flatMap FrameCodec.encode
        ++ (Conversation.mk messages controls).octets := by
  simp only [octets, frames, List.flatMap_cons, List.flatMap_append, List.append_assoc]

end Conversation

/-- The message that an output delivers to the user. -/
def SessionOutput.delivered : SessionOutput → Option (MessageKind × Bytes)
  | .message text => some (.text, text)
  | .binary payload => some (.binary, payload)
  | _ => none

/-- The messages delivered so far. -/
def SessionWorld.delivered {σ : Type*} (w : SessionWorld σ) : List (MessageKind × Bytes) :=
  w.outputs.filterMap SessionOutput.delivered

/-! ## One frame -/

theorem Fragment.regular (f : Fragment) {opcode : Opcode} (h : opcode.value < 16) (fin : Bool) :
    (f.frame opcode fin).Regular where
  payloadLen_eq := by
    have hle : f.payload.val.length ≤ 2 ^ 63 - 1 := f.payload.property
    show (UInt64.ofNat f.payload.val.length).toNat = f.payload.val.length
    rw [UInt64.toNat_ofNat']
    exact Nat.mod_eq_of_lt (by omega)
  opcode_lt := h
  maskingKey_eq h := by
    show f.maskingKey.getD 0 = 0
    rw [Option.isSome_eq_false_iff.mp h |> Option.isNone_iff_eq_none.mp]
    rfl

theorem ControlFrame.regular (c : ControlFrame) : c.frame.Regular := by
  refine c.content.regular ?_ true
  cases c.kind <;> decide

/-- A regular frame is found at the front of what was encoded. -/
theorem nextFrame_encode {f : Frame} (h : f.Regular) (rest : Bytes) :
    nextFrame (FrameCodec.encode f ++ rest) = .item f rest := by
  have hframe := WireFrame.frame_ofFrame f h.payloadLen_eq h.opcode_lt h.maskingKey_eq
  rw [WireFrame.encode_eq_octets f h.payloadLen_eq, nextFrame_octets, hframe]

namespace SessionWorld

variable {σ : Type*} (w : SessionWorld σ)

/-- What a callback has the session do delivers nothing. -/
theorem delivered_calls (outputs : List SessionOutput) (calls : List SessionCall) :
    (outputs ++ calls.flatMap SessionCall.outputs).filterMap SessionOutput.delivered
      = outputs.filterMap SessionOutput.delivered := by
  have hnone : (calls.flatMap SessionCall.outputs).filterMap SessionOutput.delivered = [] := by
    rw [List.filterMap_flatMap]
    refine List.flatMap_eq_nil_iff.mpr fun call _ => ?_
    cases call <;> rfl
  rw [List.filterMap_append, hnone, List.append_nil]

/-- A callback that is set delivers the message it is called with. -/
theorem delivered_invoke {call : SessionOutput} {message : MessageKind × Bytes}
    (h : call.delivered = some message) (callback : σ → σ × List SessionCall) :
    (w.invoke call (some callback)).delivered = w.delivered ++ [message] := by
  show (w.outputs ++ call :: (callback w.user).2.flatMap SessionCall.outputs).filterMap _ = _
  rw [List.append_cons, delivered_calls, List.filterMap_append, List.filterMap_cons_some h]
  rfl

theorem delivered_sendPong : w.sendPong.delivered = w.delivered :=
  delivered_calls w.outputs [.send FrameCodec.encodePong]

end SessionWorld

namespace WebSocketSession

variable {σ : Type*} (session : WebSocketSession σ)

/-- A control frame between fragments delivers nothing and leaves the session open. -/
theorem handleFrame_control (c : ControlFrame) (w : SessionWorld σ) :
    ∃ w', session.handleFrame c.frame w = (true, w') ∧ w'.delivered = w.delivered := by
  obtain ⟨kind, content⟩ := c
  cases kind with
  | ping => exact ⟨w.sendPong, rfl, w.delivered_sendPong⟩
  | pong => exact ⟨w, rfl, rfl⟩

/-- The first fragment of a message is delivered. -/
theorem handleFrame_first {session : WebSocketSession σ} (hmessage : session.onMessage.isSome)
    (hbinary : session.onBinary.isSome) (m : FragmentedMessage) (fin : Bool)
    (w : SessionWorld σ) :
    ∃ w', session.handleFrame (m.first.frame m.kind.opcode fin) w = (true, w')
      ∧ w'.delivered = w.delivered ++ [(m.kind, m.first.payload.val)] := by
  obtain ⟨onMessage, hmessage⟩ := Option.isSome_iff_exists.mp hmessage
  obtain ⟨onBinary, hbinary⟩ := Option.isSome_iff_exists.mp hbinary
  obtain ⟨kind, first, others⟩ := m
  cases kind with
  | text =>
    refine ⟨w.invoke (.message first.payload.val) (some (onMessage first.payload.val)), ?_,
      w.delivered_invoke rfl _⟩
    show (true, w.invoke _ (session.onMessage.map _)) = _
    rw [hmessage]
    rfl
  | binary =>
    refine ⟨w.invoke (.binary first.payload.val) (some (onBinary first.payload.val)), ?_,
      w.delivered_invoke rfl _⟩
    show (true, w.invoke _ (session.onBinary.map _)) = _
    rw [hbinary]
    rfl

/-- **A continuation closes the session.** -/
theorem handleFrame_continuation (f : Fragment) (fin : Bool) (w : SessionWorld σ) :
    ∃ w', session.handleFrame (f.frame .continuation fin) w = (false, w') :=
  ⟨w.close 1002 (lit "Invalid opcode") (by decide), rfl⟩

/-! ## What is drained from a conversation -/

/-- Behind a frame that leaves the session open. -/
theorem drain_goOn {f : Frame} (hf : f.Regular) {w w' : SessionWorld σ}
    (h : session.handleFrame f w = (true, w')) (rest : Bytes) :
    (Consumer.drain frameDecoder session.receive (FrameCodec.encode f ++ rest) w).outcome
        = (Consumer.drain frameDecoder session.receive rest w').outcome
      ∧ (Consumer.drain frameDecoder session.receive (FrameCodec.encode f ++ rest) w).state
        = (Consumer.drain frameDecoder session.receive rest w').state := by
  have hreceive : session.receive f w = (.goOn, w') := by
    rw [receive, h]
  rw [Consumer.drain_item (D := frameDecoder) (nextFrame_encode hf rest), hreceive]
  exact ⟨rfl, rfl⟩

/-- Control frames deliver nothing. -/
theorem drain_controls (controls : List ControlFrame) (rest : Bytes) (w : SessionWorld σ) :
    ∃ w' : SessionWorld σ, w'.delivered = w.delivered
      ∧ (Consumer.drain frameDecoder session.receive
          ((controls.map ControlFrame.frame).flatMap FrameCodec.encode ++ rest) w).outcome
        = (Consumer.drain frameDecoder session.receive rest w').outcome
      ∧ (Consumer.drain frameDecoder session.receive
          ((controls.map ControlFrame.frame).flatMap FrameCodec.encode ++ rest) w).state
        = (Consumer.drain frameDecoder session.receive rest w').state := by
  induction controls generalizing w with
  | nil => exact ⟨w, rfl, rfl, rfl⟩
  | cons c controls ih =>
    obtain ⟨w₁, hhandle, hw₁⟩ := session.handleFrame_control c w
    obtain ⟨w', hw', hout, hstate⟩ := ih w₁
    rw [List.map_cons, List.flatMap_cons, List.append_assoc]
    obtain ⟨hout₁, hstate₁⟩ := session.drain_goOn c.regular hhandle
      ((controls.map ControlFrame.frame).flatMap FrameCodec.encode ++ rest)
    exact ⟨w', hw'.trans hw₁, hout₁.trans hout, hstate₁.trans hstate⟩

/-- A continuation stops the receiver. -/
theorem drain_continuation (f : Fragment) (fin : Bool) (rest : Bytes) (w : SessionWorld σ) :
    (Consumer.drain frameDecoder session.receive
      (FrameCodec.encode (f.frame .continuation fin) ++ rest) w).outcome = .stopped := by
  obtain ⟨w', hhandle⟩ := session.handleFrame_continuation f fin w
  have hreceive : session.receive (f.frame .continuation fin) w = (.stop, w') := by
    rw [receive, hhandle]
  have hregular := f.regular (show Opcode.continuation.value < 16 by decide) fin
  rw [Consumer.drain_item (D := frameDecoder) (nextFrame_encode hregular rest), hreceive]

/-- The fragments behind the first stop the receiver. -/
theorem drain_continuationFrames {others : List (List ControlFrame × Fragment)}
    (h : others ≠ []) (rest : Bytes) (w : SessionWorld σ) :
    (Consumer.drain frameDecoder session.receive
      ((continuationFrames others).flatMap FrameCodec.encode ++ rest) w).outcome
        = .stopped := by
  obtain ⟨⟨controls, fragment⟩, others, rfl⟩ := List.exists_cons_of_ne_nil h
  rw [continuationFrames, List.flatMap_append, List.flatMap_cons, List.append_assoc,
    List.append_assoc]
  obtain ⟨w', -, hout, -⟩ := session.drain_controls controls _ w
  rw [hout]
  exact session.drain_continuation fragment _ _ w'

section Set

variable {session} (hmessage : session.onMessage.isSome) (hbinary : session.onBinary.isSome)
include hmessage hbinary

/-- Control frames and the first fragment of a message. -/
theorem drain_message (controls : List ControlFrame) (m : FragmentedMessage) (rest : Bytes)
    (w : SessionWorld σ) :
    ∃ w' : SessionWorld σ, w'.delivered = w.delivered ++ [(m.kind, m.first.payload.val)]
      ∧ (Consumer.drain frameDecoder session.receive
          ((controls.map ControlFrame.frame ++ m.frames).flatMap FrameCodec.encode ++ rest)
          w).outcome
        = (Consumer.drain frameDecoder session.receive
          ((continuationFrames m.others).flatMap FrameCodec.encode ++ rest) w').outcome
      ∧ (Consumer.drain frameDecoder session.receive
          ((controls.map ControlFrame.frame ++ m.frames).flatMap FrameCodec.encode ++ rest)
          w).state
        = (Consumer.drain frameDecoder session.receive
          ((continuationFrames m.others).flatMap FrameCodec.encode ++ rest) w').state := by
  have hregular : (m.first.frame m.kind.opcode m.others.isEmpty).Regular := by
    refine m.first.regular ?_ _
    cases m.kind <;> decide
  rw [FragmentedMessage.frames, List.flatMap_append, List.flatMap_cons, List.append_assoc,
    List.append_assoc]
  obtain ⟨w₁, hw₁, hout₁, hstate₁⟩ := session.drain_controls controls
    (FrameCodec.encode (m.first.frame m.kind.opcode m.others.isEmpty)
      ++ ((continuationFrames m.others).flatMap FrameCodec.encode ++ rest)) w
  obtain ⟨w', hhandle, hw'⟩ := handleFrame_first hmessage hbinary m m.others.isEmpty w₁
  obtain ⟨hout, hstate⟩ := session.drain_goOn hregular hhandle
    ((continuationFrames m.others).flatMap FrameCodec.encode ++ rest)
  exact ⟨w', hw'.trans (by rw [hw₁]), hout₁.trans hout, hstate₁.trans hstate⟩

/-- Messages of one fragment each are delivered. -/
theorem drain_unfragmented {messages : List (List ControlFrame × FragmentedMessage)}
    (h : ∀ m ∈ messages, m.2.others = []) (controls : List ControlFrame) (w : SessionWorld σ) :
    (Consumer.drain frameDecoder session.receive
        (Conversation.mk messages controls).octets w).outcome = .waiting []
      ∧ (Consumer.drain frameDecoder session.receive
        (Conversation.mk messages controls).octets w).state.delivered
          = w.delivered ++ (Conversation.mk messages controls).expected := by
  induction messages generalizing w with
  | nil =>
    obtain ⟨w', hw', hout, hstate⟩ := session.drain_controls controls [] w
    rw [List.append_nil, Consumer.drain_nil] at hout hstate
    refine ⟨hout, ?_⟩
    show (Consumer.drain frameDecoder session.receive
      ((controls.map ControlFrame.frame).flatMap FrameCodec.encode) w).state.delivered = _
    rw [hstate]
    exact hw'.trans (List.append_nil _).symm
  | cons m messages ih =>
    obtain ⟨before, m⟩ := m
    obtain hm : m.others = [] := h _ (List.mem_cons_self ..)
    have hrest : ∀ m ∈ messages, m.2.others = [] := fun m hm => h m (List.mem_cons_of_mem _ hm)
    have hoctets := Conversation.octets_cons before m messages controls
    obtain ⟨w', hw', hout, hstate⟩ := drain_message hmessage hbinary before m
      (Conversation.mk messages controls).octets w
    obtain ⟨ihout, ihstate⟩ := ih hrest w'
    rw [hm] at hout hstate
    have hexpected : (m.kind, m.first.payload.val) = m.message := by
      rw [FragmentedMessage.message, hm, List.flatMap_nil, List.append_nil]
    refine ⟨by rw [hoctets]; exact hout.trans ihout, ?_⟩
    rw [hoctets]
    refine (congrArg SessionWorld.delivered hstate).trans (ihstate.trans ?_)
    rw [hw', hexpected, List.append_assoc]
    rfl

/-- A message of several fragments closes the connection. -/
theorem drain_fragmented {messages : List (List ControlFrame × FragmentedMessage)}
    (h : ∃ m ∈ messages, m.2.others ≠ []) (controls : List ControlFrame)
    (w : SessionWorld σ) :
    (Consumer.drain frameDecoder session.receive
      (Conversation.mk messages controls).octets w).outcome = .stopped := by
  induction messages generalizing w with
  | nil =>
    obtain ⟨m, hm, -⟩ := h
    cases hm
  | cons m messages ih =>
    obtain ⟨before, m⟩ := m
    have hoctets := Conversation.octets_cons before m messages controls
    obtain ⟨w', -, hout, -⟩ := drain_message hmessage hbinary before m
      (Conversation.mk messages controls).octets w
    rw [hoctets, hout]
    by_cases hm : m.others = []
    · rw [hm]
      refine ih ?_ w'
      obtain ⟨m', hm', hne⟩ := h
      rcases List.mem_cons.mp hm' with rfl | hm'
      · exact absurd hm hne
      · exact ⟨m', hm', hne⟩
    · exact session.drain_continuationFrames hm _ w'

/-! ## Delivery -/

/-- A session with a message of several fragments is closed, however the stream is cut. -/
theorem closed_of_fragmented {c : Conversation} (h : ∃ m ∈ c.messages, m.2.others ≠ [])
    {chunks : List Bytes} (hs : chunks.flatten = c.octets) (w : SessionWorld σ) :
    (session.deliver chunks w).outcome = .closed := by
  have hend := (session.deliver_drains chunks w).ending_eq
  rw [hs, drain_fragmented hmessage hbinary h] at hend
  unfold SessionState.ending at hend
  cases ho : (session.deliver chunks w).outcome <;> rw [ho] at hend <;> cases hend

/-- **When the messages arrive.** In a session with callbacks for both kinds of messages,
whatever they do, and for every conversation and every way of cutting its octets: the
callbacks are called once for each message, in order and with the whole of it, and `OnData`
does not close the connection itself, exactly if each message is a single fragment. -/
theorem messages_arrive_iff (c : Conversation) (chunks : List Bytes)
    (hs : chunks.flatten = c.octets) (user : σ) :
    ((session.deliver chunks ⟨user, []⟩).world.delivered = c.expected
        ∧ (session.deliver chunks ⟨user, []⟩).outcome ≠ .closed)
      ↔ ∀ m ∈ c.messages, m.2.others = [] := by
  constructor
  · rintro ⟨-, hopen⟩
    by_contra hfrag
    push Not at hfrag
    exact hopen (closed_of_fragmented hmessage hbinary hfrag hs _)
  · intro h
    obtain ⟨hend, hworld⟩ := session.deliver_drains chunks ⟨user, []⟩
    obtain ⟨hout, hstate⟩ := drain_unfragmented hmessage hbinary h c.controls ⟨user, []⟩
    rw [hs] at hend hworld
    refine ⟨by rw [hworld]; exact hstate, fun hclosed => ?_⟩
    rw [SessionState.ending, hclosed, hout] at hend
    cases hend

end Set

/-- A session with callbacks that do nothing. -/
def quiet : WebSocketSession Unit :=
  ⟨some fun _ user => (user, []), some fun _ user => (user, []), none⟩

/-- The text `Hi` in two fragments with a ping between them. -/
def fragmentedHi : Conversation where
  messages := [([], ⟨.text, ⟨⟨[0x48], by decide⟩, none⟩,
    [([⟨.ping, ⟨⟨[], by decide⟩, none⟩⟩], ⟨⟨[0x69], by decide⟩, some 0x01020304⟩)]⟩)]
  controls := []

/-- The text `Hi` as one frame. -/
def wholeHi : Conversation where
  messages := [([], ⟨.text, ⟨⟨[0x48, 0x69], by decide⟩, some 0x01020304⟩, []⟩)]
  controls := []

/-- The text `Hi` as one frame is delivered. -/
theorem messages_arrive_hi :
    ((quiet.deliver [wholeHi.octets] ⟨(), []⟩).world.delivered = wholeHi.expected
        ∧ (quiet.deliver [wholeHi.octets] ⟨(), []⟩).outcome ≠ .closed)
      ↔ ∀ m ∈ wholeHi.messages, m.2.others = [] :=
  messages_arrive_iff rfl rfl wholeHi [wholeHi.octets] (List.append_nil _) ()

/-- The text `Hi` in two fragments is not delivered: the connection is closed. -/
theorem fragmented_not_delivered :
    ¬ ((quiet.deliver [fragmentedHi.octets] ⟨(), []⟩).world.delivered = [(.text, lit "Hi")]
      ∧ (quiet.deliver [fragmentedHi.octets] ⟨(), []⟩).outcome ≠ .closed) := by
  rintro ⟨-, hopen⟩
  refine hopen (closed_of_fragmented rfl rfl ⟨_, List.mem_singleton_self _, ?_⟩
    (List.append_nil _) _)
  exact List.cons_ne_nil _ _

end WebSocketSession
