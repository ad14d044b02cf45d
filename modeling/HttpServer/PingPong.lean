import HttpServer.WebsocketFragments

/-!
# Pings and pongs

A ping is to be answered by a pong with the same payload. `ProcessFrames` answers it by `SendPong`,
which takes no payload and sends an empty one. So there is a pong for each ping, in order, and the
pongs are the answers exactly if there was nothing in the pings: `pings_answered_iff`.

A callback may have the session send frames, too, and a pong among them is one that nobody has
asked for.
-/

/-! ## What is asked and what is answered -/

/-- A frame of the traffic: one of a message, or a ping or a pong. -/
inductive TrafficFrame
  | message (kind : MessageKind) (content : Fragment) (fin : Bool)
  | control (c : ControlFrame)

namespace TrafficFrame

/-- The frame. -/
def frame : TrafficFrame → Frame
  | message kind content fin => content.frame kind.opcode fin
  | control c => c.frame

/-- The payload of a ping. -/
def pingPayload : TrafficFrame → Option Bytes
  | control ⟨.ping, content⟩ => some content.payload.val
  | _ => none

theorem regular (f : TrafficFrame) : f.frame.Regular := by
  cases f with
  | message kind content fin =>
    refine content.regular ?_ fin
    cases kind <;> decide
  | control c => exact c.regular

end TrafficFrame

/-- The payloads of the pings of the traffic. -/
def pingPayloads (traffic : List TrafficFrame) : List Bytes :=
  traffic.filterMap TrafficFrame.pingPayload

/-- The payload of a pong, for octets that decode to one. -/
def FrameCodec.pongPayload (octets : Bytes) : Option Bytes :=
  match nextFrame octets with
  | .item frame _ => if frame.opcode = .pong then some frame.payload.val else none
  | _ => none

/-- The payload of a pong that was handed to the connection. -/
def SessionOutput.pongPayload : SessionOutput → Option Bytes
  | .send frame => FrameCodec.pongPayload frame
  | _ => none

/-- The payloads of the pongs handed to the connection so far. -/
def SessionWorld.pongPayloads {σ : Type*} (w : SessionWorld σ) : List Bytes :=
  w.outputs.filterMap SessionOutput.pongPayload

/-- The frame that a call of a callback hands to the connection. -/
def SessionCall.frame : SessionCall → Bytes
  | send frame => frame
  | close code ⟨reason, h⟩ => FrameCodec.encodeClose code reason h

namespace WebSocketSession

variable {σ : Type*} (session : WebSocketSession σ)

/-- The callback for a message. -/
def callback (kind : MessageKind) (payload : Bytes) : Option (σ → σ × List SessionCall) :=
  match kind with
  | .text => session.onMessage.map (· payload)
  | .binary => session.onBinary.map (· payload)

/-- What the callbacks make of a frame: the user's state behind it, and their calls of the
session. -/
def callbackReply (f : TrafficFrame) (user : σ) : σ × List SessionCall :=
  match f with
  | .message kind content _ =>
    ((session.callback kind content.payload.val).map (· user)).getD (user, [])
  | .control _ => (user, [])

/-- The frames that the callbacks have sent, by `Close` too, when they are called with the messages
of the traffic, one after the other. -/
def callbackFrames : List TrafficFrame → σ → List Bytes
  | [], _ => []
  | f :: traffic, user =>
    (session.callbackReply f user).2.map SessionCall.frame
      ++ callbackFrames traffic (session.callbackReply f user).1

end WebSocketSession

/-! ## One frame -/

/-- `SendPong` sends a pong with nothing in it. -/
theorem FrameCodec.pongPayload_encodePong :
    FrameCodec.pongPayload FrameCodec.encodePong = some [] := by
  have hframe : FrameCodec.encodePong
      = FrameCodec.encode ((Fragment.mk ⟨[], Nat.zero_le _⟩ none).frame .pong true) := rfl
  have hnext := nextFrame_encode
    (Fragment.regular ⟨⟨[], Nat.zero_le _⟩, none⟩ (show Opcode.pong.value < 16 by decide) true) []
  rw [List.append_nil, ← hframe] at hnext
  rw [FrameCodec.pongPayload, hnext]
  rfl

/-- A call hands one frame to the connection, which may be a pong. -/
theorem SessionCall.filterMap_pongPayload (call : SessionCall) :
    call.outputs.filterMap SessionOutput.pongPayload
      = (FrameCodec.pongPayload call.frame).toList := by
  cases hframe : FrameCodec.pongPayload call.frame <;> cases call <;>
    simp_all [outputs, SessionCall.frame, SessionOutput.pongPayload]

/-- The pongs among the frames of some calls. -/
theorem SessionCall.filterMap_pongPayload_calls (calls : List SessionCall) :
    (calls.flatMap outputs).filterMap SessionOutput.pongPayload
      = (calls.map SessionCall.frame).filterMap FrameCodec.pongPayload := by
  induction calls with
  | nil => rfl
  | cons call calls ih =>
    rw [List.flatMap_cons, List.filterMap_append, filterMap_pongPayload, ih, List.map_cons,
      List.filterMap_cons]
    cases FrameCodec.pongPayload call.frame <;> rfl

namespace SessionWorld

variable {σ : Type*} (w : SessionWorld σ)

theorem pongPayloads_sendPong : w.sendPong.pongPayloads = w.pongPayloads ++ [[]] := by
  rw [pongPayloads, sendPong, List.filterMap_append, List.filterMap_cons_some
    (show (SessionOutput.send FrameCodec.encodePong).pongPayload = some [] from
      FrameCodec.pongPayload_encodePong)]
  rfl

/-- A callback that is called with a message adds the pongs that it has sent. -/
theorem pongPayloads_invoke (call : SessionOutput) (hcall : call.pongPayload = none)
    (callback : Option (σ → σ × List SessionCall)) :
    (w.invoke call callback).user = ((callback.map (· w.user)).getD (w.user, [])).1
      ∧ (w.invoke call callback).pongPayloads = w.pongPayloads
        ++ (((callback.map (· w.user)).getD (w.user, [])).2.map SessionCall.frame).filterMap
          FrameCodec.pongPayload := by
  cases callback with
  | none => exact ⟨rfl, (List.append_nil _).symm⟩
  | some callback =>
    refine ⟨rfl, ?_⟩
    show (w.outputs ++ call :: (callback w.user).2.flatMap SessionCall.outputs).filterMap _ = _
    rw [List.filterMap_append, List.filterMap_cons_none hcall,
      SessionCall.filterMap_pongPayload_calls]
    rfl

end SessionWorld

namespace WebSocketSession

variable {σ : Type*} (session : WebSocketSession σ)

/-- **A frame of the traffic leaves the session open**, a ping is answered by an empty pong, and
the callback for a message may send others. -/
theorem handleFrame_traffic (f : TrafficFrame) (w : SessionWorld σ) :
    ∃ w', session.handleFrame f.frame w = (true, w')
      ∧ w'.user = (session.callbackReply f w.user).1
      ∧ w'.pongPayloads = w.pongPayloads ++ (f.pingPayload.map fun _ => []).toList
        ++ ((session.callbackReply f w.user).2.map SessionCall.frame).filterMap
          FrameCodec.pongPayload := by
  cases f with
  | message kind content fin =>
    cases kind with
    | text =>
      obtain ⟨huser, hpongs⟩ := w.pongPayloads_invoke (.message content.payload.val) rfl
        (session.callback .text content.payload.val)
      exact ⟨_, rfl, huser, hpongs.trans (by rw [List.append_assoc]; rfl)⟩
    | binary =>
      obtain ⟨huser, hpongs⟩ := w.pongPayloads_invoke (.binary content.payload.val) rfl
        (session.callback .binary content.payload.val)
      exact ⟨_, rfl, huser, hpongs.trans (by rw [List.append_assoc]; rfl)⟩
  | control c =>
    obtain ⟨kind, content⟩ := c
    cases kind with
    | ping => exact ⟨w.sendPong, rfl, rfl, w.pongPayloads_sendPong.trans (List.append_nil _).symm⟩
    | pong =>
      exact ⟨w, rfl, rfl, ((List.append_nil _).trans (List.append_nil _)).symm⟩

/-! ## All of the traffic -/

/-- The pongs that the session sends on the traffic: the empty ones that answer pings, and those
of the callbacks. -/
def pongsSent : List TrafficFrame → σ → List Bytes
  | [], _ => []
  | f :: traffic, user =>
    (f.pingPayload.map fun _ => []).toList
      ++ ((session.callbackReply f user).2.map SessionCall.frame).filterMap FrameCodec.pongPayload
      ++ pongsSent traffic (session.callbackReply f user).1

/-- What is drained from the traffic. -/
theorem drain_traffic (traffic : List TrafficFrame) (w : SessionWorld σ) :
    (Consumer.drain frameDecoder session.receive
        (traffic.flatMap fun f => FrameCodec.encode f.frame) w).state.pongPayloads
      = w.pongPayloads ++ session.pongsSent traffic w.user := by
  induction traffic generalizing w with
  | nil =>
    rw [List.flatMap_nil, Consumer.drain_nil]
    exact (List.append_nil _).symm
  | cons f traffic ih =>
    obtain ⟨w', hhandle, huser, hpongs⟩ := session.handleFrame_traffic f w
    obtain ⟨-, hstate⟩ := session.drain_goOn f.regular hhandle
      (traffic.flatMap fun f => FrameCodec.encode f.frame)
    rw [List.flatMap_cons, hstate, ih w', huser, hpongs, pongsSent]
    simp only [List.append_assoc]

/-- **There is a pong for each ping**, and one for each that a callback sends. -/
theorem length_pongsSent (traffic : List TrafficFrame) (user : σ) :
    (session.pongsSent traffic user).length = (pingPayloads traffic).length
      + ((session.callbackFrames traffic user).filterMap FrameCodec.pongPayload).length := by
  induction traffic generalizing user with
  | nil => rfl
  | cons f traffic ih =>
    have hping : ((f.pingPayload.map fun _ => ([] : Bytes)).toList).length
        + (pingPayloads traffic).length = (pingPayloads (f :: traffic)).length := by
      rw [pingPayloads, pingPayloads, List.filterMap_cons]
      cases f.pingPayload with
      | none => exact Nat.zero_add _
      | some p => exact Nat.add_comm 1 _
    rw [pongsSent, callbackFrames, List.filterMap_append, List.length_append, List.length_append,
      List.length_append, ih, ← hping]
    omega

/-- **The pongs are empty** if the callbacks send none. -/
theorem pongsSent_of_quiet {traffic : List TrafficFrame} {user : σ}
    (h : ∀ frame ∈ session.callbackFrames traffic user, FrameCodec.pongPayload frame = none) :
    session.pongsSent traffic user = (pingPayloads traffic).map fun _ => [] := by
  induction traffic generalizing user with
  | nil => rfl
  | cons f traffic ih =>
    obtain ⟨hreply, hrest⟩ := List.forall_mem_append.mp h
    rw [pongsSent, ih hrest, List.filterMap_eq_nil_iff.mpr hreply, List.append_nil, pingPayloads,
      pingPayloads, List.filterMap_cons]
    cases f.pingPayload <;> rfl

/-- **When pings are answered with their payloads.** For every sequence of text, binary, ping and
pong frames, masked or not, and however it is cut into chunks, the pongs that are handed to the
connection have the payloads of the pings, in order, exactly if the pings are all empty and the
callbacks have no pong sent. -/
theorem pings_answered_iff (traffic : List TrafficFrame) (chunks : List Bytes)
    (h : chunks.flatten = traffic.flatMap fun f => FrameCodec.encode f.frame) (user : σ) :
    (session.deliver chunks ⟨user, []⟩).world.pongPayloads = pingPayloads traffic
      ↔ (∀ payload ∈ pingPayloads traffic, payload = [])
        ∧ ∀ frame ∈ session.callbackFrames traffic user, FrameCodec.pongPayload frame = none := by
  have hsent : (session.deliver chunks ⟨user, []⟩).world.pongPayloads
      = session.pongsSent traffic user := by
    rw [(session.deliver_drains chunks ⟨user, []⟩).world_eq, h, drain_traffic]
    rfl
  rw [hsent]
  constructor
  · intro hanswered
    have hlength := session.length_pongsSent traffic user
    rw [hanswered, Nat.left_eq_add, List.length_eq_zero_iff] at hlength
    have hquiet := List.filterMap_eq_nil_iff.mp hlength
    refine ⟨fun payload hpayload => ?_, hquiet⟩
    rw [← hanswered, session.pongsSent_of_quiet hquiet] at hpayload
    obtain ⟨-, -, hnil⟩ := List.mem_map.mp hpayload
    exact hnil.symm
  · rintro ⟨hempty, hquiet⟩
    rw [session.pongsSent_of_quiet hquiet]
    exact (List.map_congr_left fun payload hpayload => (hempty payload hpayload).symm).trans
      (List.map_id' _)

/-- A masked ping, cut within its key. -/
theorem pings_answered_iff_masked :
    let session : WebSocketSession Unit := ⟨some fun _ user => (user, []), none, none⟩
    let ping : TrafficFrame := .control ⟨.ping, ⟨⟨lit "hi", by decide⟩, some 1⟩⟩
    let chunks : List Bytes := [[0x89, 0x82, 0x00], [0x00, 0x00, 0x01, 0x69, 0x69]]
    (session.deliver chunks ⟨(), []⟩).world.pongPayloads = pingPayloads [ping]
      ↔ (∀ payload ∈ pingPayloads [ping], payload = [])
        ∧ ∀ frame ∈ session.callbackFrames [ping] (), FrameCodec.pongPayload frame = none :=
  pings_answered_iff _ _ _ (by decide +kernel) _

/-- A ping with a payload is answered by a pong without one. -/
theorem ping_not_answered :
    let session : WebSocketSession Unit := ⟨none, none, none⟩
    let ping : TrafficFrame := .control ⟨.ping, ⟨⟨lit "hi", by decide⟩, none⟩⟩
    let chunks : List Bytes := [FrameCodec.encode ping.frame]
    (session.deliver chunks ⟨(), []⟩).world.pongPayloads = [[]]
      ∧ pingPayloads [ping] = [lit "hi"]
      ∧ (session.deliver chunks ⟨(), []⟩).world.pongPayloads ≠ pingPayloads [ping] := by
  decide +kernel

end WebSocketSession
