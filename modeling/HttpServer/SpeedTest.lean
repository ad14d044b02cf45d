import HttpServer.IntText
import HttpServer.JsonFields
import HttpServer.SessionClose
import HttpServer.StreamPrefix
import HttpServer.TcpSend
import HttpServer.WebsocketFragments

/-!
# The speed test

`SpeedTestWebSocketHandler::CreateAndHandle` of `application/websocket/speedtest_ws_handler.cpp`.
It answers the handshake, makes a session that answers the pings of the client, and starts a thread
that sends octets for ten seconds. From then on there are two that send on the connection, the
session and the thread, and a flush may come at any time. Either of them has its frames refused if
the queue is full, and the connection may be closed under both.

The client decodes what comes to it. Whatever the order of the steps, it finds whole frames, the
first of those that were enqueued, in that order (`client_reads`): never a frame in the middle of
another one, and nothing that neither has sent.

The session is held by its own callback, and so it is never destroyed.
-/

/-! ## The source -/

/-- The values of an `int`. -/
abbrev IntValue := { n : ℤ // InIntRange n }

/-- `extractJsonInt`. -/
def extractJsonInt (json key : Bytes) (defaultVal : IntValue) : IntValue :=
  let val := extractJsonString json key
  if val = [] then defaultVal
  else
    match h : stoi val with
    | .ok n => ⟨n, (stoi_eq_ok_iff.mp h).2⟩
    | .error _ => defaultVal

/-- `getJsonType`. -/
def getJsonType (json : Bytes) : Bytes := extractJsonString json (lit "type")

/-- The text of the answer to a ping. -/
def pongText (seq : IntValue) : Bytes :=
  lit "\x7b\"type\":\"pong\",\"seq\":" ++ intToDecimal seq.val ++ lit "\x7d"

theorem length_toDecimal_le (n : ℕ) : (toDecimal n).length ≤ n + 1 := by
  induction n using Nat.strongRecOn with
  | _ n ih =>
    rw [toDecimal_eq, List.length_append, List.length_singleton]
    split
    · exact Nat.le_add_left 1 n
    · have hrec := ih (n / 10) (by omega)
      omega

theorem length_pongText_le (seq : IntValue) : (pongText seq).length ≤ vectorMaxSize := by
  obtain ⟨n, hmin, hmax⟩ := seq
  show (_ ++ intToDecimal n ++ _ : Bytes).length ≤ _
  have hdigits : (intToDecimal n).length ≤ 2147483650 := by
    cases n with
    | ofNat n =>
      have hle : (intToDecimal (.ofNat n)).length ≤ n + 1 := length_toDecimal_le n
      have hn : (n : ℤ) ≤ 2147483647 := hmax
      omega
    | negSucc n =>
      have hle : (intToDecimal (.negSucc n)).length ≤ n + 1 + 1 + 1 :=
        Nat.succ_le_succ (length_toDecimal_le (n + 1))
      have hn : (-2147483648 : ℤ) ≤ -((n : ℤ) + 1) :=
        hmin.trans_eq (Int.negSucc_eq n)
      omega
  have hmaxSize : 2147483672 ≤ vectorMaxSize := by decide
  rw [List.length_append, List.length_append, lit, lit, List.length_map, List.length_map]
  refine le_trans ?_ hmaxSize
  show 21 + _ + 1 ≤ _
  omega

namespace SpeedTest

/-- What the server sends behind its answer to the handshake. -/
inductive ServerFrame
  /-- 64 KiB of test data -/
  | chunk
  /-- the end of the test -/
  | finished
  /-- the answer to a ping of the test -/
  | pong (seq : IntValue)
  /-- the answer to a ping of the protocol -/
  | controlPong
  /-- `Close` with its defaults -/
  | close
  | invalidOpcode
  deriving DecidableEq

/-- `test_data`. -/
def testData : ByteVector :=
  ⟨List.replicate (64 * 1024) 0xAA, by rw [List.length_replicate]; decide⟩

theorem testFinished_fits : (lit "Test finished").length + 2 ≤ vectorMaxSize := by decide

theorem invalidOpcode_fits : (lit "Invalid opcode").length + 2 ≤ vectorMaxSize := by decide

theorem noReason_fits : ([] : Bytes).length + 2 ≤ vectorMaxSize := by decide

/-- What is handed to the connection. -/
def ServerFrame.octets : ServerFrame → Bytes
  | chunk => FrameCodec.encodeBinary testData
  | finished => FrameCodec.encodeClose 1000 (lit "Test finished") testFinished_fits
  | pong seq => FrameCodec.encodeText ⟨pongText seq, length_pongText_le seq⟩
  | controlPong => FrameCodec.encodePong
  | close => FrameCodec.encodeClose 1000 [] noReason_fits
  | invalidOpcode => FrameCodec.encodeClose 1002 (lit "Invalid opcode") invalidOpcode_fits

/-- What `on_message_` sends. -/
def reply (msg : Bytes) : List ServerFrame :=
  if getJsonType msg = lit "ping" then [.pong (extractJsonInt msg (lit "seq") ⟨-1, by decide⟩)]
  else []

/-- The callbacks of the session. -/
def callbacks : WebSocketSession Unit where
  onMessage := some fun msg user => (user, (reply msg).map fun f => .send f.octets)
  onBinary := some fun _ user => (user, [])
  onClose := some fun _ _ user => (user, [])

/-- Who sends on the connection. -/
inductive Sender
  | handler
  | session
  | download
  deriving DecidableEq

/-- Where the download thread is. -/
inductive DownloadPoint
  /-- In its loop. -/
  | sending
  /-- Behind the loop. -/
  | closing
  | completed
  deriving DecidableEq

end SpeedTest

/-- **A speed test**: the connection, the session and how much of what it has to do has been done,
and the download thread. -/
structure SpeedTest where
  run : TCPConnection.SendRun SpeedTest.Sender
  wsSession : SessionState Unit := ⟨[], .waiting, ⟨(), []⟩⟩
  performed : ℕ := 0
  download : SpeedTest.DownloadPoint := .sending

namespace SpeedTest

/-- What the threads and the event loop do. What a call of `Send` meets is in its label: whether
the data can be allocated, and the answers of the socket. -/
inductive Action
  /-- A chunk is sent, and the clock is read behind it. -/
  | sendChunk (alloc : Bool) (io : ℕ → SendOutcome) (expired : Bool)
  | sendFinished (alloc : Bool) (io : ℕ → SendOutcome)
  /-- `OnData` of the session. -/
  | onData (data : Bytes)
  /-- The session does the next thing that it has to do. -/
  | perform (alloc : Bool) (io : ℕ → SendOutcome)
  | flush (io : ℕ → SendOutcome)
  /-- The connection is closed by someone else. -/
  | closeConnection

/-- `CreateAndHandle`, up to the threads that it leaves behind: the test, or the connection alone
where the handshake could not be answered. -/
def createAndHandle (run : TCPConnection.SendRun Sender) (response : Bytes) (alloc : Bool)
    (io : ℕ → SendOutcome) : TCPConnection.SendRun Sender ⊕ SpeedTest :=
  let run' := run.call .handler (.send response alloc io)
  match (run.conn.send response alloc io).2 with
  | .error _ => .inl { run' with conn := run'.conn.close }
  | .ok _ => .inr { run := run' }

variable (s : SpeedTest)

/-- The connection is closed. -/
def close : SpeedTest := { s with run := { s.run with conn := s.run.conn.close } }

/-- One output of the session. The calls of the callbacks have no effect here. -/
def output (alloc : Bool) (io : ℕ → SendOutcome) : SessionOutput → SpeedTest
  | .send frame => { s with run := s.run.call .session (.send frame alloc io) }
  | .closeConnection => s.close
  | _ => s

/-- One step. -/
def step : Action → Option SpeedTest
  | .sendChunk alloc io expired =>
    if s.download = .sending then
      some { s with
        run := s.run.call .download (.send ServerFrame.chunk.octets alloc io)
        download :=
          match (s.run.conn.send ServerFrame.chunk.octets alloc io).2 with
          | .error .again => .sending
          | .error _ => .closing
          | .ok _ => if expired then .closing else .sending }
    else none
  | .sendFinished alloc io =>
    if s.download = .closing then
      some { s with
        run := s.run.call .download (.send ServerFrame.finished.octets alloc io)
        download := .completed }
    else none
  | .onData data =>
    -- the thread that hands data to the session does what comes of it first
    if s.performed = s.wsSession.world.outputs.length then
      some { s with
        wsSession := callbacks.processFrames (s.wsSession.recvBuffer ++ data) s.wsSession.world }
    else none
  | .perform alloc io =>
    s.wsSession.world.outputs[s.performed]?.map fun o =>
      { s.output alloc io o with performed := s.performed + 1 }
  | .flush io => some { s with run := s.run.call .handler (.flush io) }
  | .closeConnection => some s.close

/-- **The threads at one test.** -/
def machine : Machine SpeedTest Action Unit :=
  ⟨fun s a => (s.step a).map fun t => (t, ())⟩

end SpeedTest

/-! ## Frames -/

namespace WebSocketSession

variable {σ : Type*} (session : WebSocketSession σ)

/-- **What every frame keeps, the loop over the frames keeps.** -/
theorem processFrames_rule {P : SessionWorld σ → Prop}
    (h : ∀ frame w, P w → P (session.handleFrame frame w).2) (buffer : Bytes)
    {w : SessionWorld σ} (hw : P w) : P (session.processFrames buffer w).world := by
  rw [(session.processFrames_drains buffer w).world_eq]
  refine Consumer.drain_rule (fun frame w hw => ?_) buffer hw
  rw [session.receive_snd]
  exact h frame w hw

end WebSocketSession

namespace SpeedTest

namespace ServerFrame

def payload : ServerFrame → ByteVector
  | chunk => testData
  | finished => ⟨0x03 :: 0xE8 :: lit "Test finished", testFinished_fits⟩
  | pong seq => ⟨pongText seq, length_pongText_le seq⟩
  | controlPong => ⟨[], Nat.zero_le _⟩
  | close => ⟨[0x03, 0xE8], by decide⟩
  | invalidOpcode => ⟨0x03 :: 0xEA :: lit "Invalid opcode", by decide⟩

def opcode : ServerFrame → Opcode
  | chunk => .binary
  | pong _ => .text
  | controlPong => .pong
  | _ => .close

/-- What the client decodes. -/
def frame (f : ServerFrame) : Frame := (Fragment.mk f.payload none).frame f.opcode true

/-- The server encodes these frames. -/
theorem octets_eq (f : ServerFrame) : f.octets = FrameCodec.encode f.frame := by
  cases f <;> rfl

theorem regular (f : ServerFrame) : f.frame.Regular := by
  refine Fragment.regular _ ?_ true
  unfold opcode
  split <;> decide

/-- They are found wherever they stand. -/
theorem encodes (f : ServerFrame) :
    Consumer.Encodes frameDecoder ServerFrame.octets ServerFrame.frame f := by
  intro rest
  rw [octets_eq]
  exact nextFrame_encode f.regular rest

end ServerFrame

/-- What the session does when it takes a frame. -/
def reaction (frame : Frame) : List SessionOutput :=
  let payload := frame.payload.val
  if frame.opcode = .text then
    .message payload :: (reply payload).map fun f => .send f.octets
  else if frame.opcode = .binary then [.binary payload]
  else if frame.opcode = .ping then [.send ServerFrame.controlPong.octets]
  else if frame.opcode = .pong then []
  else if frame.opcode = .close then
    [.closing (closeReason payload).1 (closeReason payload).2, .send ServerFrame.close.octets,
      .closeConnection]
  else [.send ServerFrame.invalidOpcode.octets, .closeConnection]

/-- **What a frame adds to the outputs.** -/
theorem outputs_handleFrame (frame : Frame) (w : SessionWorld Unit) :
    (callbacks.handleFrame frame w).2.outputs = w.outputs ++ reaction frame := by
  unfold WebSocketSession.handleFrame reaction
  dsimp only
  split
  · show w.outputs ++ _ :: ((reply frame.payload.val).map _).flatMap SessionCall.outputs = _
    rw [List.flatMap_map]
    exact congrArg (w.outputs ++ _ :: ·) (List.flatMap_pure_eq_map _ _)
  split
  · rfl
  split
  · rfl
  split
  · exact (List.append_nil _).symm
  split
  · show w.outputs ++ _ ++ _ = _
    rw [List.append_assoc]
    rfl
  · rfl

/-- The outputs of the session are what it does when it takes some frames. -/
def Reacts (w : SessionWorld Unit) : Prop :=
  ∃ frames : List Frame, w.outputs = frames.flatMap reaction

theorem reacts_processFrames {w : SessionWorld Unit} (h : Reacts w) (buffer : Bytes) :
    Reacts (callbacks.processFrames buffer w).world := by
  refine callbacks.processFrames_rule ?_ buffer h
  rintro frame w ⟨frames, hframes⟩
  refine ⟨frames ++ [frame], ?_⟩
  rw [outputs_handleFrame, hframes, List.flatMap_append, List.flatMap_singleton]

/-- The outputs so far stay. -/
theorem outputs_prefix (buffer : Bytes) (w : SessionWorld Unit) :
    w.outputs <+: (callbacks.processFrames buffer w).world.outputs := by
  refine callbacks.processFrames_rule (P := fun w' => w.outputs <+: w'.outputs) ?_ buffer
    List.prefix_rfl
  intro frame w' h
  rw [outputs_handleFrame]
  exact h.trans (List.prefix_append _ _)

/-- **The session sends the frames of the server.** -/
theorem exists_octets_of_send {frame : Frame} {b : Bytes} (h : .send b ∈ reaction frame) :
    ∃ f : ServerFrame, b = f.octets := by
  have hone {f : ServerFrame} (h : SessionOutput.send b = .send f.octets) :
      ∃ f : ServerFrame, b = f.octets := ⟨f, SessionOutput.send.inj h⟩
  unfold reaction at h
  dsimp only at h
  split at h
  · obtain ⟨f, -, hf⟩ := List.mem_map.mp ((List.mem_cons.mp h).resolve_left nofun)
    exact hone hf.symm
  split at h
  · exact absurd (List.mem_singleton.mp h) nofun
  split at h
  · exact hone (List.mem_singleton.mp h)
  split at h
  · cases h
  split at h
  · have hsend := (List.mem_cons.mp h).resolve_left nofun
    exact hone ((List.mem_cons.mp hsend).resolve_right fun h =>
      absurd (List.mem_singleton.mp h) nofun)
  · exact hone ((List.mem_cons.mp h).resolve_right fun h =>
      absurd (List.mem_singleton.mp h) nofun)

/-- So every frame that it hands to the connection is one of them. -/
theorem Reacts.exists_octets {w : SessionWorld Unit} (h : Reacts w) {b : Bytes}
    (hb : .send b ∈ w.outputs) : ∃ f : ServerFrame, b = f.octets := by
  obtain ⟨frames, hframes⟩ := h
  rw [hframes] at hb
  obtain ⟨frame, -, hframe⟩ := List.mem_flatMap.mp hb
  exact exists_octets_of_send hframe

/-! ## Runs -/

/-- What an output hands to the connection. -/
def sent : SessionOutput → Option Bytes
  | .send b => some b
  | _ => none

/-- The frames of one sender. -/
def framesOf (p : Sender) (l : List (Sender × ServerFrame)) : List ServerFrame :=
  (l.filter fun m => m.1 = p).map Prod.snd

/-- What comes of a frame in the queue. -/
def message (m : Sender × ServerFrame) : Sender × Bytes := (m.1, m.2.octets)

/-- What the download thread has had enqueued: chunks, and behind them the end of the test, once
it has come to that. -/
def Downloaded (point : DownloadPoint) (l : List ServerFrame) : Prop :=
  ∃ n, l = List.replicate n .chunk
    ∨ point = .completed ∧ l = List.replicate n .chunk ++ [.finished]

/-- **What holds of a test** at any time, for what was enqueued before it and behind that. -/
structure Inv (earlier : List (Sender × Bytes)) (s : SpeedTest)
    (frames : List (Sender × ServerFrame)) : Prop where
  run : s.run.Inv
  enqueued_eq : s.run.enqueued = earlier ++ frames.map message
  reacts : Reacts s.wsSession.world
  performed_le : s.performed ≤ s.wsSession.world.outputs.length
  session_sublist : List.Sublist ((framesOf .session frames).map ServerFrame.octets)
    ((s.wsSession.world.outputs.take s.performed).filterMap sent)
  downloaded : Downloaded s.download (framesOf .download frames)
  handler_nil : framesOf .handler frames = []

theorem framesOf_append (p : Sender) (l l' : List (Sender × ServerFrame)) :
    framesOf p (l ++ l') = framesOf p l ++ framesOf p l' := by
  rw [framesOf, List.filter_append, List.map_append]
  rfl

/-- Someone else's frame. -/
theorem framesOf_append_of_ne {p q : Sender} (h : q ≠ p) (l : List (Sender × ServerFrame))
    (f : ServerFrame) : framesOf p (l ++ [(q, f)]) = framesOf p l := by
  have hfilter : framesOf p [(q, f)] = [] := by
    rw [framesOf, List.filter_cons_of_neg (by simpa using h)]
    rfl
  rw [framesOf_append, hfilter, List.append_nil]

theorem framesOf_append_self (p : Sender) (l : List (Sender × ServerFrame)) (f : ServerFrame) :
    framesOf p (l ++ [(p, f)]) = framesOf p l ++ [f] := by
  have hfilter : framesOf p [(p, f)] = [f] := by
    rw [framesOf, List.filter_cons_of_pos (by simp)]
    rfl
  rw [framesOf_append, hfilter]

/-- A frame is enqueued or refused. -/
def enqueue (s : SpeedTest) (p : Sender) (f : ServerFrame) (alloc : Bool) :
    List (Sender × ServerFrame) :=
  if s.run.conn.Enqueues f.octets alloc then [(p, f)] else []

theorem enqueue_cases (s : SpeedTest) (p : Sender) (f : ServerFrame) (alloc : Bool) :
    s.enqueue p f alloc = [(p, f)] ∨ s.enqueue p f alloc = [] := by
  unfold enqueue
  split
  · exact .inl rfl
  · exact .inr rfl

variable {earlier : List (Sender × Bytes)} {s t : SpeedTest} {frames : List (Sender × ServerFrame)}

/-- **One call of `Send`.** -/
theorem enqueued_send (h : s.run.enqueued = earlier ++ frames.map message) (p : Sender)
    (f : ServerFrame) (alloc : Bool) (io : ℕ → SendOutcome) :
    (s.run.call p (.send f.octets alloc io)).enqueued
      = earlier ++ (frames ++ s.enqueue p f alloc).map message := by
  show (if s.run.conn.Enqueues f.octets alloc then s.run.enqueued ++ [(p, f.octets)]
    else s.run.enqueued) = _
  rw [enqueue]
  split
  · rw [h, List.map_append, ← List.append_assoc]
    rfl
  · rw [h, List.append_nil]

theorem Downloaded.chunk {l : List ServerFrame} (h : Downloaded .sending l)
    (point : DownloadPoint) : Downloaded point l ∧ Downloaded point (l ++ [.chunk]) := by
  obtain ⟨n, rfl | ⟨hpoint, -⟩⟩ := h
  · exact ⟨⟨n, .inl rfl⟩, n + 1, .inl List.replicate_succ'.symm⟩
  · cases hpoint

theorem Downloaded.finished {l : List ServerFrame} (h : Downloaded .closing l) :
    Downloaded .completed l ∧ Downloaded .completed (l ++ [.finished]) := by
  obtain ⟨n, rfl | ⟨hpoint, -⟩⟩ := h
  · exact ⟨⟨n, .inl rfl⟩, n, .inr ⟨rfl, rfl⟩⟩
  · cases hpoint

/-- The session's frames are all enqueued. -/
def AllSent (s : SpeedTest) (frames : List (Sender × ServerFrame)) : Prop :=
  (framesOf .session frames).map ServerFrame.octets
    = (s.wsSession.world.outputs.take s.performed).filterMap sent

/-- A frame of the session that is handed to the connection is enqueued. -/
def Accepts (s : SpeedTest) : Action → Prop
  | .perform alloc _ =>
    ∀ b, s.wsSession.world.outputs[s.performed]? = some (.send b) → s.run.conn.Enqueues b alloc
  | _ => True

namespace Inv

/-- The download thread sends. -/
theorem download (h : Inv earlier s frames) {f : ServerFrame} {point : DownloadPoint}
    (hpoint : ∀ l, Downloaded s.download l → Downloaded point l ∧ Downloaded point (l ++ [f]))
    (alloc : Bool) (io : ℕ → SendOutcome) :
    Inv earlier { s with
      run := s.run.call .download (.send f.octets alloc io), download := point }
      (frames ++ s.enqueue .download f alloc)
      ∧ framesOf .session (frames ++ s.enqueue .download f alloc) = framesOf .session frames := by
  obtain ⟨hkept, hadded⟩ := hpoint _ h.downloaded
  have henq := enqueued_send h.enqueued_eq .download f alloc io
  rcases s.enqueue_cases .download f alloc with hnew | hnew <;> rw [hnew] at henq ⊢
  · have hsession := framesOf_append_of_ne (p := .session) (q := .download) (by decide) frames f
    refine ⟨⟨h.run.call .download (.send f.octets alloc io), henq, h.reacts, h.performed_le, ?_, ?_,
      ?_⟩, hsession⟩
    · rw [hsession]
      exact h.session_sublist
    · rw [framesOf_append_self]
      exact hadded
    · rw [framesOf_append_of_ne (by decide)]
      exact h.handler_nil
  · rw [List.append_nil] at henq ⊢
    exact ⟨⟨h.run.call .download (.send f.octets alloc io), henq, h.reacts, h.performed_le,
      h.session_sublist, hkept, h.handler_nil⟩, rfl⟩

theorem close (h : Inv earlier s frames) : Inv earlier s.close frames := by
  have hrun : s.close.run.Inv := by
    obtain ⟨hwf, hwire, hbytes⟩ := h.run
    unfold SpeedTest.close TCPConnection.close
    split <;> exact ⟨hwf, hwire, hbytes⟩
  exact ⟨hrun, h.enqueued_eq, h.reacts, h.performed_le, h.session_sublist, h.downloaded,
    h.handler_nil⟩

/-- Data for the session. -/
theorem onData (h : Inv earlier s frames) (data : Bytes) :
    let s' : SpeedTest := { s with
      wsSession := callbacks.processFrames (s.wsSession.recvBuffer ++ data) s.wsSession.world }
    Inv earlier s' frames ∧ (AllSent s frames → AllSent s' frames) := by
  have hprefix := outputs_prefix (s.wsSession.recvBuffer ++ data) s.wsSession.world
  have htake : (callbacks.processFrames (s.wsSession.recvBuffer ++ data)
      s.wsSession.world).world.outputs.take s.performed
      = s.wsSession.world.outputs.take s.performed := by
    obtain ⟨later, hlater⟩ := hprefix
    rw [← hlater, List.take_append_of_le_length h.performed_le]
  refine ⟨⟨h.run, h.enqueued_eq, reacts_processFrames h.reacts _,
    h.performed_le.trans hprefix.length_le, ?_, h.downloaded, h.handler_nil⟩, fun hall => ?_⟩
  · show List.Sublist _ (List.filterMap _ (List.take _ _))
    rw [htake]
    exact h.session_sublist
  · show _ = List.filterMap _ (List.take _ _)
    rw [htake]
    exact hall

/-- **One output of the session.** -/
theorem perform (h : Inv earlier s frames) {o : SessionOutput}
    (ho : s.wsSession.world.outputs[s.performed]? = some o) (alloc : Bool) (io : ℕ → SendOutcome) :
    let s' : SpeedTest := { s.output alloc io o with performed := s.performed + 1 }
    ∃ new, Inv earlier s' (frames ++ new)
      ∧ (Accepts s (.perform alloc io) → AllSent s frames → AllSent s' (frames ++ new)) := by
  have hlt : s.performed < s.wsSession.world.outputs.length :=
    (List.getElem?_eq_some_iff.mp ho).1
  have htake : (s.wsSession.world.outputs.take (s.performed + 1)).filterMap sent
      = (s.wsSession.world.outputs.take s.performed).filterMap sent ++ (sent o).toList := by
    rw [List.take_add_one, ho, List.filterMap_append]
    cases hsent : sent o <;> simp [hsent]
  have hmem : o ∈ s.wsSession.world.outputs := List.mem_of_getElem? ho
  -- what is left to be seen for the connection behind the step, and the frame that is added
  have hnext : ∀ (run : TCPConnection.SendRun Sender) (new : List (Sender × ServerFrame)),
      run.Inv → run.enqueued = earlier ++ (frames ++ new).map message →
      framesOf .download (frames ++ new) = framesOf .download frames →
      framesOf .handler (frames ++ new) = framesOf .handler frames →
      List.Sublist ((framesOf .session (frames ++ new)).map ServerFrame.octets)
        ((s.wsSession.world.outputs.take s.performed).filterMap sent ++ (sent o).toList) →
      Inv earlier { s with run, performed := s.performed + 1 } (frames ++ new) := by
    intro run new hrun henq hdownload hhandler hsub
    refine ⟨hrun, henq, h.reacts, hlt, ?_, ?_, ?_⟩
    · rw [htake]
      exact hsub
    · rw [hdownload]
      exact h.downloaded
    · rw [hhandler]
      exact h.handler_nil
  -- an output that hands nothing to the connection
  have hquiet : ∀ run : TCPConnection.SendRun Sender, run.Inv → run.enqueued = s.run.enqueued →
      sent o = none →
      ∃ new, Inv earlier { s with run, performed := s.performed + 1 } (frames ++ new)
        ∧ (Accepts s (.perform alloc io) → AllSent s frames →
          AllSent { s with run, performed := s.performed + 1 } (frames ++ new)) := by
    intro run hrun henq hsent
    have hnone : (sent o).toList = [] := by rw [hsent, Option.toList_none]
    rw [hnone, List.append_nil] at htake
    refine ⟨[], hnext run [] hrun ?_ ?_ ?_ ?_, fun _ hall => ?_⟩
    · rw [List.append_nil]
      exact henq.trans h.enqueued_eq
    · rw [List.append_nil]
    · rw [List.append_nil]
    · rw [List.append_nil, hnone, List.append_nil]
      exact h.session_sublist
    · rw [List.append_nil]
      exact hall.trans htake.symm
  cases o with
  | send b =>
    obtain ⟨f, rfl⟩ := h.reacts.exists_octets hmem
    have henq := enqueued_send h.enqueued_eq .session f alloc io
    have hrun := h.run.call .session (.send f.octets alloc io)
    by_cases haccept : s.run.conn.Enqueues f.octets alloc
    · rw [enqueue, if_pos haccept] at henq
      refine ⟨[(.session, f)], hnext _ _ hrun henq (framesOf_append_of_ne (by decide) frames f)
        (framesOf_append_of_ne (by decide) frames f) ?_, fun _ hall => ?_⟩
      · rw [framesOf_append_self, List.map_append]
        exact h.session_sublist.append (List.Sublist.refl _)
      · refine Eq.trans ?_ htake.symm
        rw [framesOf_append_self, List.map_append]
        exact congrArg (· ++ [f.octets]) hall
    · rw [enqueue, if_neg haccept] at henq
      refine ⟨[], hnext _ _ hrun henq ?_ ?_ ?_, fun haccepts => absurd (haccepts _ ho) haccept⟩
      · rw [List.append_nil]
      · rw [List.append_nil]
      · rw [List.append_nil]
        exact h.session_sublist.trans (List.sublist_append_left _ _)
  | closeConnection => exact hquiet s.close.run h.close.run rfl rfl
  | message text => exact hquiet s.run h.run rfl rfl
  | binary payload => exact hquiet s.run h.run rfl rfl
  | closing code reason => exact hquiet s.run h.run rfl rfl

end Inv

/-- **Every step keeps the invariant**, with the frame that it adds if there is one. -/
theorem Inv.step (h : Inv earlier s frames) {a : Action} (hs : s.step a = some t) :
    ∃ new, Inv earlier t (frames ++ new)
      ∧ (Accepts s a → AllSent s frames → AllSent t (frames ++ new)) := by
  cases a with
  | sendChunk alloc io expired =>
    simp only [SpeedTest.step] at hs
    split at hs
    · rename_i hpoint
      cases hs
      obtain ⟨hinv, hsession⟩ := h.download (f := .chunk)
        (fun l hl => (hpoint ▸ hl : Downloaded .sending l).chunk _) alloc io
      exact ⟨_, hinv, fun _ hall => (congrArg _ hsession).trans hall⟩
    · cases hs
  | sendFinished alloc io =>
    simp only [SpeedTest.step] at hs
    split at hs
    · rename_i hpoint
      cases hs
      obtain ⟨hinv, hsession⟩ := h.download (f := .finished)
        (fun l hl => (hpoint ▸ hl : Downloaded .closing l).finished) alloc io
      exact ⟨_, hinv, fun _ hall => (congrArg _ hsession).trans hall⟩
    · cases hs
  | onData data =>
    simp only [SpeedTest.step] at hs
    split at hs
    · cases hs
      obtain ⟨hinv, hall⟩ := h.onData data
      refine ⟨[], ?_⟩
      rw [List.append_nil]
      exact ⟨hinv, fun _ => hall⟩
    · cases hs
  | perform alloc io =>
    obtain ⟨o, ho, rfl⟩ := Option.map_eq_some_iff.mp hs
    exact h.perform ho alloc io
  | flush io =>
    cases hs
    refine ⟨[], ?_⟩
    rw [List.append_nil]
    exact ⟨⟨h.run.call .handler (.flush io), h.enqueued_eq, h.reacts, h.performed_le,
      h.session_sublist, h.downloaded, h.handler_nil⟩, fun _ hall => hall⟩
  | closeConnection =>
    cases hs
    refine ⟨[], ?_⟩
    rw [List.append_nil]
    exact ⟨h.close, fun _ hall => hall⟩

/-- Behind the handshake the test begins with the invariant. -/
theorem inv_of_createAndHandle {run : TCPConnection.SendRun Sender} (hrun : run.Inv)
    {response : Bytes} {alloc : Bool} {io : ℕ → SendOutcome} {start : SpeedTest}
    (hstart : createAndHandle run response alloc io = .inr start) :
    Inv start.run.enqueued start [] ∧ AllSent start [] := by
  unfold createAndHandle at hstart
  dsimp only at hstart
  split at hstart
  · cases hstart
  · cases hstart
    exact ⟨⟨hrun.call .handler (.send response alloc io), (List.append_nil _).symm, ⟨[], rfl⟩,
      Nat.le_refl 0, List.Sublist.refl _, ⟨0, .inl rfl⟩, rfl⟩, rfl⟩

theorem wsSession_of_createAndHandle {run : TCPConnection.SendRun Sender} {response : Bytes}
    {alloc : Bool} {io : ℕ → SendOutcome} {start : SpeedTest}
    (hstart : createAndHandle run response alloc io = .inr start) :
    start.wsSession = ⟨[], .waiting, ⟨(), []⟩⟩ := by
  unfold createAndHandle at hstart
  dsimp only at hstart
  split at hstart <;> cases hstart
  rfl

/-- The answer to the handshake is the last thing that was enqueued. -/
theorem enqueued_of_createAndHandle {run : TCPConnection.SendRun Sender} {response : Bytes}
    {alloc : Bool} {io : ℕ → SendOutcome} {start : SpeedTest}
    (hstart : createAndHandle run response alloc io = .inr start)
    (henqueues : run.conn.Enqueues response alloc) :
    (start.run.enqueued.map Prod.snd).flatten
      = (run.enqueued.map Prod.snd).flatten ++ response := by
  unfold createAndHandle at hstart
  dsimp only at hstart
  split at hstart
  · cases hstart
  · cases hstart
    show ((if run.conn.Enqueues response alloc then _ else _ : List (Sender × Bytes)).map
      Prod.snd).flatten = _
    rw [if_pos henqueues, List.map_append, List.flatten_append]
    exact congrArg _ (List.append_nil _)

/-- **Every run keeps the invariant.** -/
theorem Inv.run_machine (h : Inv earlier s []) {actions : List Action} {os : List Unit}
    (hr : machine.run s actions = some (t, os)) : ∃ frames, Inv earlier t frames := by
  refine machine.run_invariant (I := fun s _ => ∃ frames, Inv earlier s frames) ⟨[], h⟩ ?_ hr
  rintro s _ a r ⟨frames, hinv⟩ hstep
  obtain ⟨t, ht, rfl⟩ := Option.map_eq_some_iff.mp hstep
  obtain ⟨new, hnew, -⟩ := hinv.step ht
  exact ⟨frames ++ new, hnew⟩

/-- And if no frame of the session is refused, they are all sent. -/
theorem Inv.run_accepts (h : Inv earlier s []) (hall : AllSent s []) {actions : List Action}
    (haccept : machine.Along Accepts s actions) {os : List Unit}
    (hr : machine.run s actions = some (t, os)) :
    ∃ frames, Inv earlier t frames ∧ AllSent t frames := by
  refine haccept.run_invariant (I := fun s _ => ∃ frames, Inv earlier s frames ∧ AllSent s frames)
    ⟨[], h, hall⟩ ?_ hr
  rintro s _ a r ⟨frames, hinv, hall⟩ haccept hstep
  obtain ⟨t, ht, rfl⟩ := Option.map_eq_some_iff.mp hstep
  obtain ⟨new, hnew, hallNew⟩ := hinv.step ht
  exact ⟨frames ++ new, hnew, hallNew haccept hall⟩

/-! ## What the client reads -/

/-- The client takes frame after frame. -/
def clientTakes (_ : Frame) (u : Unit) : Consumer.Verdict StdException × Unit := (.goOn, u)

/-- What the client makes of the chunks in which the stream behind the handshake has come. -/
def clientReads (chunks : List Bytes) : Consumer.Run UInt8 Frame StdException Unit :=
  Consumer.feedAll frameDecoder clientTakes chunks ()

/-- **The wire of a test**, behind what was enqueued before it. -/
structure Reads (before : Bytes) (t : SpeedTest) (frames : List (Sender × ServerFrame)) : Prop where
  wire_append : t.run.wire ++ t.run.conn.pending
    = before ++ (frames.map fun m => m.2.octets).flatten
  handler_nil : framesOf .handler frames = []
  downloaded : Downloaded t.download (framesOf .download frames)
  /-- However the stream is cut, the client has the first of the frames and waits for more. -/
  read : ∀ body chunks, t.run.wire = before ++ body → chunks.flatten = body →
    ∃ k ≤ frames.length, ∃ rest,
      clientReads chunks = ⟨(frames.take k).map fun m => m.2.frame, .waiting rest, ()⟩
        ∧ (t.run.conn.pending = [] → k = frames.length ∧ rest = [])

theorem Inv.reads (h : Inv earlier t frames) :
    Reads (earlier.map Prod.snd).flatten t frames := by
  have hwire : t.run.wire ++ t.run.conn.pending
      = (earlier.map Prod.snd).flatten ++ (frames.map fun m => m.2.octets).flatten := by
    rw [h.run.wire_append, h.enqueued_eq, List.map_append, List.flatten_append, List.map_map]
    rfl
  refine ⟨hwire, h.handler_nil, h.downloaded, fun body chunks hbody hchunks => ?_⟩
  rw [hbody, List.append_assoc] at hwire
  have hcut := List.append_cancel_left hwire
  obtain ⟨k, rest, hcame, hdrain⟩ := Consumer.drain_of_prefix frameDecoder clientTakes
    (fun m : Sender × ServerFrame => m.2.frame) (fun _ _ _ => rfl) (fun m _ => m.2.encodes)
    ⟨t.run.conn.pending, hcut⟩ ()
  refine ⟨k, hcame.le_length, rest, ?_, fun hnil => ?_⟩
  · rw [clientReads, Consumer.feedAll_eq_drain, hchunks, hdrain]
  · rw [hnil, List.append_nil] at hcut
    rw [hcut] at hcame
    exact hcame.eq_length

end SpeedTest
