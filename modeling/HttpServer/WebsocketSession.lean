import HttpServer.Consumer
import HttpServer.WebsocketFrame

/-!
# WebSocket sessions

The receiving half of `application/websocket/websocket_session.cpp`. What arrives is
appended to `recv_buffer_`, and `ProcessFrames` takes frames off its front and acts on
their opcodes until the buffer holds no complete frame, the session is closed, or
decoding throws.

Decoding is a `Consumer.Decoder` (`frameDecoder`), because what the codec recognises are
exactly the octets of wire frames; acting on a frame is the receiver of its items. So the
loop drains the buffer (`processFrames_drains`), and a session whose `OnData` is called with
chunk after chunk has drained the stream that they make up (`deliver_drains`).

A callback may have the session do what anyone may: send frames, or `Close` the connection.
The loop does not notice a `Close` of a callback and goes on.
-/

namespace FrameCodec

/-- `EncodeData`. -/
def encodeData (payload : ByteVector) (opcode : Opcode) (fin : Bool := true) : Bytes :=
  encode { fin, opcode, mask := false, payloadLen := .ofNat payload.val.length, payload }

/-- `EncodePong`. -/
def encodePong : Bytes := encodeData ⟨[], Nat.zero_le _⟩ .pong

/-- `EncodeClose`. -/
def encodeClose (code : UInt16) (reason : Bytes) (h : reason.length + 2 ≤ vectorMaxSize) : Bytes :=
  encodeData ⟨((code >>> 8) &&& 0xFF).toUInt8 :: (code &&& 0xFF).toUInt8 :: reason, h⟩ .close

end FrameCodec

/-! ## The source -/

/-- What a session does that can be seen from outside. -/
inductive SessionOutput
  /-- `on_message_` -/
  | message (text : Bytes)
  /-- `on_binary_` -/
  | binary (payload : Bytes)
  /-- `on_close_` -/
  | closing (code : UInt16) (reason : Bytes)
  /-- `conn_->Send` -/
  | send (frame : Bytes)
  /-- `conn_->Close` -/
  | closeConnection
  deriving DecidableEq

/-- The user's state and what the session has done so far. -/
structure SessionWorld (σ : Type*) where
  user : σ
  outputs : List SessionOutput := []

/-- What a callback has the session do. -/
inductive SessionCall
  /-- `SendText`, `SendBinary`, `SendPing` or `SendPong`, with the frame that it encodes. -/
  | send (frame : Bytes)
  | close (code : UInt16) (reason : { reason : Bytes // reason.length + 2 ≤ vectorMaxSize })

/-- What comes of it. -/
def SessionCall.outputs : SessionCall → List SessionOutput
  | send frame => [.send frame]
  | close code ⟨reason, h⟩ => [.send (FrameCodec.encodeClose code reason h), .closeConnection]

/-- The callbacks of a session, each of which may be missing. A callback may change the
user's state and call the session. -/
structure WebSocketSession (σ : Type*) where
  onMessage : Option (Bytes → σ → σ × List SessionCall)
  onBinary : Option (Bytes → σ → σ × List SessionCall)
  onClose : Option (UInt16 → Bytes → σ → σ × List SessionCall)

/-- What the loop over the frames ended with. -/
inductive SessionOutcome
  /-- There is no complete frame in the buffer. -/
  | waiting
  /-- The loop has called `Close` and returned. -/
  | closed
  /-- `Decode` has thrown. -/
  | raised (e : StdException)
  deriving DecidableEq

/-- A session after some calls of `OnData`. -/
structure SessionState (σ : Type*) where
  recvBuffer : Bytes
  outcome : SessionOutcome
  world : SessionWorld σ

namespace SessionWorld

variable {σ : Type*} (w : SessionWorld σ)

/-- A callback is called with what `call` says, if it is set. -/
def invoke (call : SessionOutput) : Option (σ → σ × List SessionCall) → SessionWorld σ
  | none => w
  | some callback =>
    let (user, calls) := callback w.user
    ⟨user, w.outputs ++ call :: calls.flatMap SessionCall.outputs⟩

/-- `SendPong`. -/
def sendPong : SessionWorld σ := { w with outputs := w.outputs ++ [.send FrameCodec.encodePong] }

/-- `Close`. -/
def close (code : UInt16) (reason : Bytes) (h : reason.length + 2 ≤ vectorMaxSize) :
    SessionWorld σ :=
  { w with
    outputs := w.outputs ++ [.send (FrameCodec.encodeClose code reason h), .closeConnection] }

end SessionWorld

/-- The status code and the reason in the payload of a close frame. -/
def closeReason (payload : Bytes) : UInt16 × Bytes :=
  match payload with
  | p0 :: p1 :: reason => ((p0.toUInt16 <<< 8) ||| p1.toUInt16, reason)
  | _ => (1000, [])

/-- What is taken off the front of a non-empty buffer leaves less of it. -/
theorem length_drop_lt {β : Type*} {buffer : List β} {consumed : ℕ} (hne : buffer ≠ [])
    (hpos : consumed ≠ 0) : (buffer.drop consumed).length < buffer.length := by
  have hlen := List.length_pos_iff.mpr hne
  rw [List.length_drop]
  omega

namespace WebSocketSession

variable {σ : Type*} (session : WebSocketSession σ)

/-- What `ProcessFrames` does with a frame, and whether it goes on behind it. -/
def handleFrame (frame : Frame) (w : SessionWorld σ) : Bool × SessionWorld σ :=
  let payload := frame.payload.val
  if frame.opcode = .text then
    (true, w.invoke (.message payload) (session.onMessage.map (· payload)))
  else if frame.opcode = .binary then
    (true, w.invoke (.binary payload) (session.onBinary.map (· payload)))
  else if frame.opcode = .ping then (true, w.sendPong)
  else if frame.opcode = .pong then (true, w)
  else if frame.opcode = .close then
    let (code, reason) := closeReason payload
    let w := w.invoke (.closing code reason) (session.onClose.map (· code reason))
    (false, w.close 1000 [] (by decide))
  else (false, w.close 1002 (lit "Invalid opcode") (by decide))

/-- `ProcessFrames`. -/
def processFrames (recvBuffer : Bytes) (w : SessionWorld σ) : SessionState σ :=
  if hne : recvBuffer = [] then ⟨recvBuffer, .waiting, w⟩
  else
    match FrameCodec.decode recvBuffer {} with
    | .error e => ⟨recvBuffer, .raised e, w⟩
    | .ok (consumed, frame) =>
      if hpos : consumed = 0 then ⟨recvBuffer, .waiting, w⟩
      else
        have := length_drop_lt hne hpos
        let recvBuffer := recvBuffer.drop consumed
        match session.handleFrame frame w with
        | (true, w) => processFrames recvBuffer w
        | (false, w) => ⟨recvBuffer, .closed, w⟩
termination_by recvBuffer.length

/-- `OnData`, on a session whose loop has neither closed it nor thrown. -/
def onData (s : SessionState σ) (data : Bytes) : SessionState σ :=
  match s.outcome with
  | .waiting => session.processFrames (s.recvBuffer ++ data) s.world
  | _ => s

/-- The chunks of a new session, until its loop has closed it or thrown. -/
def deliver (chunks : List Bytes) (w : SessionWorld σ) : SessionState σ :=
  chunks.foldl session.onData ⟨[], .waiting, w⟩

end WebSocketSession

/-! ## Decoding frames is a decoder -/

/-- An attempt to decode a frame at the front of a buffer. -/
def nextFrame (s : Bytes) : Consumer.Attempt UInt8 Frame StdException :=
  match FrameCodec.decode s {} with
  | .error e => .fail e
  | .ok (consumed, frame) => if consumed = 0 then .more else .item frame (s.drop consumed)

/-- A wire frame at the front of a buffer is found there. -/
theorem nextFrame_octets (w : WireFrame) (rest : Bytes) :
    nextFrame (w.octets ++ rest) = .item w.frame rest := by
  have hpos : w.octets.length ≠ 0 := by
    rw [WireFrame.octets, WireFrame.header, List.cons_append, List.length_cons]
    exact Nat.succ_ne_zero _
  rw [nextFrame, w.decode_octets rest {}]
  dsimp only
  rw [if_neg hpos, List.drop_left]

/-- What is found at the front of a buffer is a wire frame. -/
theorem nextFrame_item {s rest : Bytes} {frame : Frame} (h : nextFrame s = .item frame rest) :
    ∃ w : WireFrame, s = w.octets ++ rest ∧ frame = w.frame := by
  unfold nextFrame at h
  cases hdec : FrameCodec.decode s {} with
  | error e =>
    rw [hdec] at h
    cases h
  | ok r =>
    obtain ⟨consumed, f⟩ := r
    rw [hdec] at h
    dsimp only at h
    split at h
    · cases h
    · rename_i hpos
      cases h
      obtain ⟨w, rest, rfl, rfl, rfl⟩ := WireFrame.decode_sound hdec (Nat.pos_of_ne_zero hpos)
      exact ⟨w, by rw [List.drop_left], rfl⟩

theorem nextFrame_fail_iff {s : Bytes} {e : StdException} :
    nextFrame s = .fail e ↔ FrameCodec.decode s {} = .error e := by
  unfold nextFrame
  cases FrameCodec.decode s {} with
  | error e' => simp
  | ok r =>
    dsimp only
    split <;> simp

theorem nextFrame_nil : nextFrame [] = .more := rfl

/-- A frame takes octets off the buffer. -/
theorem length_lt_of_nextFrame {s rest : Bytes} {frame : Frame}
    (h : nextFrame s = .item frame rest) : rest.length < s.length := by
  obtain ⟨w, rfl, -⟩ := nextFrame_item h
  rw [List.length_append, WireFrame.octets, WireFrame.header, List.cons_append,
    List.length_cons]
  omega

/-- A frame that is found does not depend on what follows it. -/
theorem nextFrame_item_append {s rest : Bytes} {frame : Frame}
    (h : nextFrame s = .item frame rest) (t : Bytes) :
    nextFrame (s ++ t) = .item frame (rest ++ t) := by
  obtain ⟨w, rfl, rfl⟩ := nextFrame_item h
  rw [List.append_assoc, nextFrame_octets]

/-- Nor does a header that decoding throws at. -/
theorem nextFrame_fail_append {s : Bytes} {e : StdException} (h : nextFrame s = .fail e)
    (t : Bytes) : nextFrame (s ++ t) = .fail e :=
  nextFrame_fail_iff.mpr (WireFrame.decode_error_append t (nextFrame_fail_iff.mp h))

/-- **Decoding frames off a buffer is a decoder.** -/
def frameDecoder : Consumer.Decoder UInt8 Frame StdException where
  next := nextFrame
  next_nil := nextFrame_nil
  length_lt := length_lt_of_nextFrame
  item_append := nextFrame_item_append
  fail_append := nextFrame_fail_append

/-! ## The loop drains the buffer -/

namespace SessionState

variable {σ : Type*}

/-- The outcome of a session as that of a receiver. -/
def ending (s : SessionState σ) : Consumer.Outcome UInt8 StdException :=
  match s.outcome with
  | .waiting => .waiting s.recvBuffer
  | .closed => .stopped
  | .raised e => .failed e

/-- **What the session has done is what the receiver of frames makes of the stream.** -/
structure Drains (s : SessionState σ)
    (d : Consumer.Run UInt8 Frame StdException (SessionWorld σ)) : Prop where
  ending_eq : s.ending = d.outcome
  world_eq : s.world = d.state

/-- A session that waits is what the receiver left. -/
theorem Drains.eq_waiting {s : SessionState σ} {items : List Frame} {rest : Bytes}
    {w : SessionWorld σ} (h : s.Drains ⟨items, .waiting rest, w⟩) : s = ⟨rest, .waiting, w⟩ := by
  obtain ⟨hending, hworld⟩ := h
  obtain ⟨buffer, outcome, w'⟩ := s
  obtain rfl : w' = w := hworld
  cases outcome with
  | waiting =>
    cases hending
    rfl
  | closed => cases hending
  | raised e => cases hending

end SessionState

namespace WebSocketSession

variable {σ : Type*} (session : WebSocketSession σ)

/-- A frame is received. -/
def receive (frame : Frame) (w : SessionWorld σ) :
    Consumer.Verdict StdException × SessionWorld σ :=
  match session.handleFrame frame w with
  | (true, w) => (.goOn, w)
  | (false, w) => (.stop, w)

theorem receive_snd (frame : Frame) (w : SessionWorld σ) :
    (session.receive frame w).2 = (session.handleFrame frame w).2 := by
  rw [receive]
  rcases session.handleFrame frame w with ⟨goOn, w'⟩
  cases goOn <;> rfl

/-- One turn of the loop. -/
theorem processFrames_eq (buffer : Bytes) (w : SessionWorld σ) :
    session.processFrames buffer w = match nextFrame buffer with
      | .more => ⟨buffer, .waiting, w⟩
      | .fail e => ⟨buffer, .raised e, w⟩
      | .item frame rest =>
        match session.handleFrame frame w with
        | (true, w) => session.processFrames rest w
        | (false, w) => ⟨rest, .closed, w⟩ := by
  rw [processFrames, nextFrame]
  split
  · rename_i hnil
    rw [hnil]
    rfl
  · cases FrameCodec.decode buffer {} with
    | error e => rfl
    | ok r =>
      dsimp only
      split <;> rfl

/-- **The loop over the frames drains the buffer.** -/
theorem processFrames_drains (buffer : Bytes) (w : SessionWorld σ) :
    (session.processFrames buffer w).Drains
      (Consumer.drain frameDecoder session.receive buffer w) := by
  -- the loop goes on with what is behind the frame
  induction hn : buffer.length using Nat.strongRecOn generalizing buffer w with
  | _ n ih =>
    rw [processFrames_eq]
    cases hnext : nextFrame buffer with
    | more =>
      rw [Consumer.drain_more (D := frameDecoder) hnext]
      exact ⟨rfl, rfl⟩
    | fail e =>
      rw [Consumer.drain_fail (D := frameDecoder) hnext]
      exact ⟨rfl, rfl⟩
    | item frame rest =>
      have hlt : rest.length < buffer.length := frameDecoder.length_lt hnext
      rw [Consumer.drain_item (D := frameDecoder) hnext, receive]
      dsimp only
      rcases session.handleFrame frame w with ⟨goOn, w'⟩
      cases goOn with
      | false => exact ⟨rfl, rfl⟩
      | true =>
        have hrec := ih rest.length (hn ▸ hlt) rest w' rfl
        exact ⟨hrec.ending_eq, hrec.world_eq⟩

/-- One more chunk. -/
theorem onData_drains {s : SessionState σ}
    {d : Consumer.Run UInt8 Frame StdException (SessionWorld σ)} (h : s.Drains d)
    (data : Bytes) :
    (session.onData s data).Drains (Consumer.feed frameDecoder session.receive d data) := by
  obtain ⟨hend, hworld⟩ := h
  obtain ⟨buffer, outcome, w⟩ := s
  obtain ⟨items, outcome', w'⟩ := d
  obtain rfl : w = w' := hworld
  cases outcome with
  | waiting =>
    obtain rfl : Consumer.Outcome.waiting buffer = outcome' := hend
    have hrec := session.processFrames_drains (buffer ++ data) w
    exact ⟨hrec.ending_eq, hrec.world_eq⟩
  | closed =>
    obtain rfl : Consumer.Outcome.stopped = outcome' := hend
    exact ⟨rfl, rfl⟩
  | raised e =>
    obtain rfl : Consumer.Outcome.failed e = outcome' := hend
    exact ⟨rfl, rfl⟩

/-- **The chunks of a session are received as the stream they make up.** -/
theorem deliver_drains (chunks : List Bytes) (w : SessionWorld σ) :
    (session.deliver chunks w).Drains
      (Consumer.drain frameDecoder session.receive chunks.flatten w) := by
  rw [← Consumer.feedAll_eq_drain, Consumer.feedAll, deliver]
  have hfold : ∀ (s : SessionState σ)
      (d : Consumer.Run UInt8 Frame StdException (SessionWorld σ)), s.Drains d →
      (chunks.foldl session.onData s).Drains
        (chunks.foldl (Consumer.feed frameDecoder session.receive) d) := by
    induction chunks with
    | nil => exact fun _ _ h => h
    | cons chunk chunks ih =>
      intro s d h
      rw [List.foldl_cons, List.foldl_cons]
      exact ih _ _ (session.onData_drains h chunk)
  exact hfold _ _ ⟨rfl, rfl⟩

end WebSocketSession
