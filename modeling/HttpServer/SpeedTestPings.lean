import HttpServer.SpeedTest

/-!
# The pings of the speed test

A client of the speed test sends texts of the type `ping`, each with a number `seq`, and measures
the time until a text with the same number comes back. Between them it may send other texts, binary
data, and pings and pongs of the protocol.

The client masks its frames as the protocol prescribes, which is not what the server undoes: it
takes the octets of the key from the other end. The texts are understood if their keys are the same
from both ends, or if they are not masked; of the other frames the server does not look at the
payload.

The answers come through the queue of the connection, among the chunks of the download thread. The
client has them in the order of its pings, each with the number of its ping, and none that it has
not asked for; if the connection refuses none of them, it has them all (`pongs_in_order`).
-/

/-! ## Numbers -/

/-- **An `int` is read back from its digits.** -/
theorem stoi_intToDecimal {n : ℤ} (h : InIntRange n) : stoi (intToDecimal n) = .ok n := by
  refine stoi_eq_ok_iff.mpr ⟨?_, h⟩
  cases n with
  | ofNat n =>
    have htext := intText_of_digits (toDecimal_ne_nil n) fun _ => isDigit_of_mem_toDecimal
    rwa [decimal_toDecimal] at htext
  | negSucc n =>
    refine ⟨[], lit "-", toDecimal (n + 1), [], ?_, by simp, by decide, toDecimal_ne_nil _,
      fun _ => isDigit_of_mem_toDecimal, by simp, ?_⟩
    · rw [List.append_nil]
      rfl
    · rw [signed, decimal_toDecimal, if_pos (by decide)]
      rfl

theorem intToDecimal_ne_nil (n : ℤ) : intToDecimal n ≠ [] := by
  cases n with
  | ofNat n => exact toDecimal_ne_nil n
  | negSucc n => exact List.cons_ne_nil _ _

/-- What `extractJsonInt` makes of the text of an `int`. -/
theorem extractJsonInt_of_text {json key : Bytes} {n defaultVal : IntValue}
    (h : extractJsonString json key = intToDecimal n.val) :
    extractJsonInt json key defaultVal = n := by
  have hne : extractJsonString json key ≠ [] := h ▸ intToDecimal_ne_nil n.val
  have hok : stoi (extractJsonString json key) = .ok n.val := h ▸ stoi_intToDecimal n.property
  unfold extractJsonInt
  dsimp only
  rw [if_neg hne]
  split
  · rename_i m hm
    exact Subtype.ext (Except.ok.inj (hm.symm.trans hok))
  · rename_i e he
    cases he.symm.trans hok

namespace SpeedTest

/-! ## The client -/

/-- **A ping of the client**: an object with its type and its number. -/
structure PingMessage where
  object : FlatObject
  seq : IntValue
  type_eq : object.valueOf (lit "type") = lit "ping"
  seq_eq : object.valueOf (lit "seq") = intToDecimal seq.val
  type_clear : object.Clear (lit "type")
  seq_clear : object.Clear (lit "seq")
  fits : object.text.length ≤ vectorMaxSize

/-- **It is answered** with its number. -/
theorem PingMessage.reply_text (p : PingMessage) : reply p.object.text = [.pong p.seq] := by
  have htype : extractJsonString p.object.text (lit "type") = lit "ping" :=
    (p.object.bothReturn_of_clear (by decide) p.type_clear).2.trans p.type_eq
  have hseq : extractJsonString p.object.text (lit "seq") = intToDecimal p.seq.val :=
    (p.object.bothReturn_of_clear (by decide) p.seq_clear).2.trans p.seq_eq
  rw [reply, getJsonType, if_pos htype, extractJsonInt_of_text hseq]

def PingMessage.payload (p : PingMessage) : ByteVector := ⟨p.object.text, p.fits⟩

/-- The payload as it travels, masked as the protocol prescribes if there is a key. -/
def masked (key : Option MaskingKey) (payload : ByteVector) : ByteVector :=
  ⟨key.elim payload.val fun k => k.apply payload.val, by
    cases key with
    | none => exact payload.property
    | some k => exact List.length_mapIdx.trans_le payload.property⟩

theorem length_masked (key : Option MaskingKey) (payload : ByteVector) :
    (masked key payload).val.length = payload.val.length := by
  cases key with
  | none => rfl
  | some k => exact List.length_mapIdx

/-- **A frame of a client**, with the shortest form of its length. -/
def clientWire (opcode : Opcode) (payload : ByteVector) (key : Option MaskingKey) : WireFrame where
  first := 0x80 ||| (opcode.value &&& 0x0F)
  form := .shortest payload.val.length
  key := key
  payload := masked key payload
  fits := by
    rw [length_masked]
    exact LengthForm.shortest_fits (Nat.lt_of_le_of_lt payload.property (by decide))

/-- The key masks this payload in the same way from both ends, or there is none. -/
def Legible (key : Option MaskingKey) (payload : ByteVector) : Prop :=
  ∀ k ∈ key, k.Palindromic payload.val.length

theorem opcode_clientWire {opcode : Opcode} (h : opcode.value < 16) (payload : ByteVector)
    (key : Option MaskingKey) : (clientWire opcode payload key).frame.opcode = opcode :=
  congrArg Opcode.mk (octet_fin_join h true).1

/-- **What the server reads of a legible frame** is what the client has written. -/
theorem payload_clientWire {key : Option MaskingKey} {payload : ByteVector}
    (h : Legible key payload) (opcode : Opcode) :
    (clientWire opcode payload key).frame.payload.val = payload.val := by
  cases key with
  | none => rfl
  | some k =>
    show FrameCodec.applyMask k.value (k.apply payload.val) = payload.val
    rw [← (FrameCodec.applyMask_eq_apply_iff k payload.val).mpr (h k rfl)]
    exact FrameCodec.applyMask_applyMask k.value payload.val

/-- What a client sends. -/
inductive ClientFrame
  | ping (p : PingMessage) (key : Option MaskingKey) (hkey : Legible key p.payload)
  | text (payload : ByteVector) (key : Option MaskingKey) (hkey : Legible key payload)
    (hother : getJsonType payload.val ≠ lit "ping")
  | upload (payload : ByteVector) (key : Option MaskingKey)
  | control (kind : ControlKind) (payload : ByteVector) (key : Option MaskingKey)

namespace ClientFrame

def opcode : ClientFrame → Opcode
  | ping .. | text .. => .text
  | upload .. => .binary
  | control kind _ _ => kind.opcode

/-- What is handed to the connection for the frame. -/
def wire : ClientFrame → WireFrame
  | ping p key _ => clientWire .text p.payload key
  | text payload key _ _ => clientWire .text payload key
  | upload payload key => clientWire .binary payload key
  | control kind payload key => clientWire kind.opcode payload key

def octets (f : ClientFrame) : Bytes := f.wire.octets

/-- What the server decodes. -/
def frame (f : ClientFrame) : Frame := f.wire.frame

/-- The number of a ping. -/
def seq : ClientFrame → Option IntValue
  | ping p .. => some p.seq
  | _ => none

/-- What the server sends when it gets the frame. -/
def answers : ClientFrame → List ServerFrame
  | ping p .. => [.pong p.seq]
  | control .ping _ _ => [.controlPong]
  | _ => []

theorem opcode_frame (f : ClientFrame) : f.frame.opcode = f.opcode := by
  cases f with
  | ping | text | upload => exact opcode_clientWire (by decide) _ _
  | control kind => cases kind <;> exact opcode_clientWire (by decide) _ _

theorem encodes (f : ClientFrame) :
    Consumer.Encodes frameDecoder ClientFrame.octets ClientFrame.frame f :=
  fun rest => nextFrame_octets f.wire rest

/-- **The session goes on behind every frame of a client.** -/
theorem receive_goOn (f : ClientFrame) (w : SessionWorld Unit) :
    (callbacks.receive f.frame w).1 = .goOn := by
  have hgoOn : (callbacks.handleFrame f.frame w).1 = true := by
    rw [WebSocketSession.handleFrame, f.opcode_frame]
    cases f with
    | ping | text | upload => rfl
    | control kind => cases kind <;> rfl
  rw [WebSocketSession.receive]
  rcases hframe : callbacks.handleFrame f.frame w with ⟨goOn, w'⟩
  rw [hframe] at hgoOn
  rw [show goOn = true from hgoOn]

/-- What the session sends for a text. -/
theorem sent_reaction_text {frame : Frame} (h : frame.opcode = .text) :
    (reaction frame).filterMap sent = (reply frame.payload.val).map ServerFrame.octets := by
  rw [reaction, if_pos h, List.filterMap_cons_none rfl, List.filterMap_map]
  exact congrFun List.filterMap_eq_map _

/-- **It sends the answers.** -/
theorem sent_reaction (f : ClientFrame) :
    (reaction f.frame).filterMap sent = f.answers.map ServerFrame.octets := by
  have hopcode := f.opcode_frame
  cases f with
  | ping p key hkey =>
    rw [sent_reaction_text hopcode]
    show (reply (clientWire .text p.payload key).frame.payload.val).map _ = _
    rw [payload_clientWire hkey]
    exact congrArg _ p.reply_text
  | text payload key hkey hother =>
    rw [sent_reaction_text hopcode]
    show (reply (clientWire .text payload key).frame.payload.val).map _ = _
    rw [payload_clientWire hkey, reply, if_neg hother]
    rfl
  | upload payload key =>
    rw [reaction, hopcode]
    rfl
  | control kind payload key =>
    rw [reaction, hopcode]
    cases kind <;> rfl

end ClientFrame

/-- What the client hands to its connection. -/
def clientOctets (traffic : List ClientFrame) : Bytes := (traffic.map ClientFrame.octets).flatten

/-- The numbers of the pings. -/
def seqs (traffic : List ClientFrame) : List IntValue := traffic.filterMap ClientFrame.seq

/-- What has been handed to the session in some steps. -/
def received (actions : List Action) : Bytes :=
  actions.flatMap fun
    | .onData data => data
    | _ => []

/-! ## The session takes the frames of the client -/

/-- Some frames, taken one after the other. -/
theorem outputs_foldl (traffic : List ClientFrame) (w : SessionWorld Unit) :
    (traffic.foldl (fun w c => (callbacks.receive c.frame w).2) w).outputs
      = w.outputs ++ traffic.flatMap fun c => reaction c.frame := by
  induction traffic generalizing w with
  | nil => exact (List.append_nil _).symm
  | cons c traffic ih =>
    rw [List.foldl_cons, ih, callbacks.receive_snd, outputs_handleFrame, List.flatMap_cons,
      List.append_assoc]

/-- **What the session makes of a part of the traffic**: it has taken the frames that have come
whole, and waits with the rest in its buffer. -/
theorem drain_traffic {traffic : List ClientFrame} {data : Bytes}
    (h : data <+: clientOctets traffic) :
    ∃ k rest items w, Consumer.drain frameDecoder callbacks.receive data ⟨(), []⟩
        = ⟨items, .waiting rest, w⟩
      ∧ w.outputs.filterMap sent
        = ((traffic.take k).flatMap ClientFrame.answers).map ServerFrame.octets
      ∧ (data = clientOctets traffic → k = traffic.length) := by
  obtain ⟨k, rest, hcame, hdrain⟩ := Consumer.drain_of_prefix frameDecoder callbacks.receive
    ClientFrame.frame (fun c _ w => c.receive_goOn w) (fun c _ => c.encodes) h ⟨(), []⟩
  refine ⟨k, rest, _, _, hdrain, ?_, fun hall => ?_⟩
  · rw [outputs_foldl, List.nil_append, List.filterMap_flatMap, List.map_flatMap]
    exact List.flatMap_congr fun c _ => c.sent_reaction
  · rw [hall] at hcame
    exact hcame.eq_length.1

/-- **The session has taken what it has received**, as long as that is a part of the traffic. -/
theorem drain_received {traffic : List ClientFrame} {start t : SpeedTest} {actions : List Action}
    {os : List Unit} (hstart : start.wsSession = ⟨[], .waiting, ⟨(), []⟩⟩)
    (hr : machine.run start actions = some (t, os))
    (hreceived : received actions <+: clientOctets traffic) :
    ∃ items, Consumer.drain frameDecoder callbacks.receive (received actions) ⟨(), []⟩
      = ⟨items, .waiting t.wsSession.recvBuffer, t.wsSession.world⟩ := by
  refine machine.run_history (I := fun s before => received before <+: clientOctets traffic →
    ∃ items, Consumer.drain frameDecoder callbacks.receive (received before) ⟨(), []⟩
      = ⟨items, .waiting s.wsSession.recvBuffer, s.wsSession.world⟩) ?_ ?_ hr hreceived
  · intro _
    rw [hstart]
    exact ⟨[], Consumer.drain_nil _⟩
  intro s before a r ih hstep hpart
  obtain ⟨s', hs', rfl⟩ := Option.map_eq_some_iff.mp hstep
  have happend : received (before ++ [a]) = received before ++ received [a] := List.flatMap_append
  rw [happend] at hpart ⊢
  obtain ⟨items, hdrain⟩ := ih ((List.prefix_append _ _).trans hpart)
  -- the other steps leave the session as it is
  have hother (hsession : s'.wsSession = s.wsSession) (hnil : received [a] = []) :
      ∃ items, Consumer.drain frameDecoder callbacks.receive (received before ++ received [a])
          ⟨(), []⟩ = ⟨items, .waiting s'.wsSession.recvBuffer, s'.wsSession.world⟩ := by
    rw [hsession, hnil, List.append_nil]
    exact ⟨items, hdrain⟩
  cases a with
  | onData data =>
    simp only [SpeedTest.step] at hs'
    split at hs'
    · cases hs'
      have hdata : received [.onData data] = data := List.append_nil data
      rw [hdata] at hpart ⊢
      obtain ⟨k, rest, items', w, hall, -, -⟩ := drain_traffic hpart
      have hbefore : SessionState.Drains ⟨s.wsSession.recvBuffer, .waiting, s.wsSession.world⟩
          (Consumer.drain frameDecoder callbacks.receive (received before) ⟨(), []⟩) := by
        rw [hdrain]
        exact ⟨rfl, rfl⟩
      have hnow := callbacks.onData_drains hbefore data
      rw [Consumer.feed_drain, hall] at hnow
      have hsession : callbacks.processFrames (s.wsSession.recvBuffer ++ data) s.wsSession.world
          = ⟨rest, .waiting, w⟩ := hnow.eq_waiting
      refine ⟨items', hall.trans ?_⟩
      rw [hsession]
    · cases hs'
  | sendChunk alloc io expired =>
    simp only [SpeedTest.step] at hs'
    split at hs' <;> cases hs'
    exact hother rfl rfl
  | sendFinished alloc io =>
    simp only [SpeedTest.step] at hs'
    split at hs' <;> cases hs'
    exact hother rfl rfl
  | perform alloc io =>
    obtain ⟨o, ho, rfl⟩ := Option.map_eq_some_iff.mp hs'
    cases o <;> exact hother rfl rfl
  | flush io =>
    cases hs'
    exact hother rfl rfl
  | closeConnection =>
    cases hs'
    exact hother rfl rfl

/-! ## What the client reads of them -/

/-- The payload of a text frame. -/
def frameText (frame : Frame) : Option Bytes :=
  if frame.opcode = .text then some frame.payload.val else none

/-- The texts that a client has read. -/
def texts (frames : List Frame) : List Bytes := frames.filterMap frameText

/-- The text in some octets. -/
def octetsText (octets : Bytes) : Option Bytes :=
  match nextFrame octets with
  | .item frame _ => frameText frame
  | _ => none

theorem octetsText_octets (f : ServerFrame) : octetsText f.octets = frameText f.frame := by
  have hnext := nextFrame_encode f.regular []
  rw [List.append_nil, ← f.octets_eq] at hnext
  rw [octetsText, hnext]

/-- The texts of a list of frames, from what is handed to the connection. -/
theorem filterMap_octetsText (l : List ServerFrame) :
    (l.map ServerFrame.octets).filterMap octetsText = l.filterMap fun f => frameText f.frame := by
  rw [List.filterMap_map]
  exact List.filterMap_congr fun f _ => octetsText_octets f

/-- **The texts are those of the session**: a chunk is no text, nor is the end of the test. -/
theorem texts_frames {point : DownloadPoint} {frames : List (Sender × ServerFrame)}
    (hhandler : framesOf .handler frames = [])
    (hdownload : Downloaded point (framesOf .download frames)) :
    texts (frames.map fun m => m.2.frame)
      = (framesOf .session frames).filterMap fun f => frameText f.frame := by
  have hnone : ∀ m ∈ frames, m.1 ≠ .session → frameText m.2.frame = none := by
    rintro ⟨p, f⟩ hm hp
    have hmem : f ∈ framesOf p frames :=
      List.mem_map.mpr ⟨(p, f), List.mem_filter.mpr ⟨hm, decide_eq_true rfl⟩, rfl⟩
    cases p with
    | session => exact absurd rfl hp
    | handler =>
      rw [hhandler] at hmem
      cases hmem
    | download =>
      obtain ⟨n, hl | ⟨-, hl⟩⟩ := hdownload <;> rw [hl] at hmem
      · rw [List.eq_of_mem_replicate hmem]
        rfl
      · rcases List.mem_append.mp hmem with hchunk | hend
        · rw [List.eq_of_mem_replicate hchunk]
          rfl
        · rw [List.mem_singleton.mp hend]
          rfl
  clear hhandler hdownload
  induction frames with
  | nil => rfl
  | cons m frames ih =>
    obtain ⟨p, f⟩ := m
    have hrest := ih fun m hm => hnone m (List.mem_cons_of_mem _ hm)
    rw [texts] at hrest ⊢
    by_cases hp : p = .session
    · subst hp
      have hframes : framesOf .session ((.session, f) :: frames)
          = f :: framesOf .session frames := by
        rw [framesOf, List.filter_cons_of_pos (by simp)]
        rfl
      rw [hframes, List.map_cons, List.filterMap_cons, List.filterMap_cons, hrest]
    · have hframes : framesOf .session ((p, f) :: frames) = framesOf .session frames := by
        rw [framesOf, List.filter_cons_of_neg (by simpa using hp)]
        rfl
      rw [hframes, List.map_cons, List.filterMap_cons_none (hnone _ List.mem_cons_self hp), hrest]

/-- The texts of the answers are the pongs. -/
theorem filterMap_answers (traffic : List ClientFrame) :
    (traffic.flatMap ClientFrame.answers).filterMap (fun f => frameText f.frame)
      = (seqs traffic).map pongText := by
  induction traffic with
  | nil => rfl
  | cons c traffic ih =>
    rw [List.flatMap_cons, List.filterMap_append, ih, seqs, seqs, List.filterMap_cons]
    cases c with
    | ping | text | upload => rfl
    | control kind => cases kind <;> rfl

/-- The first ping. -/
def firstPing : PingMessage where
  object :=
    { members := [(lit "type", .string (lit "ping")), (lit "seq", .number (lit "1"))]
      keys_nodup := by decide
      key_noQuote := by decide
      value_wellFormed := by decide +kernel }
  seq := ⟨1, by decide⟩
  type_eq := by decide
  seq_eq := by decide
  type_clear := ⟨by decide, by decide, by decide +kernel, by decide +kernel, by decide⟩
  seq_clear := ⟨by decide, by decide, by decide +kernel, by decide +kernel, by decide⟩
  fits := by decide +kernel

/-- A key that is the same from both ends. -/
theorem firstPing_legible : Legible (some ⟨7, 9, 9, 7⟩) firstPing.payload := by
  rintro k ⟨⟩
  exact Or.inr ⟨rfl, Or.inr rfl⟩

end SpeedTest
