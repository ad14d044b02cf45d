import HttpServer.WebsocketSession

/-!
# How the stream of a WebSocket session is cut

A session is fed chunk after chunk until `Close` has been called in it or `Decode` has thrown. What
it does, that is which callbacks it calls and which frames it sends, should not depend on how the
stream was cut into chunks.

For what the loop of `ProcessFrames` decides it does not. A CLOSE frame and a frame of an unknown
kind end the loop where they stand in the stream. But a callback may call `Close`, too, and then the
loop goes on: of the frames behind that message those that are in the same chunk are still handled,
and the others never are. So the cuts make no difference exactly if nothing can be seen of the
frames behind the first message whose callback closes the session (`session_segmentation_iff`).
-/

/-! ## Delivery -/

/-- `Close` has been called, by the session or by a callback. -/
def SessionWorld.Closed {σ : Type*} (w : SessionWorld σ) : Prop :=
  .closeConnection ∈ w.outputs

instance {σ : Type*} : DecidablePred (SessionWorld.Closed (σ := σ)) :=
  fun w => inferInstanceAs (Decidable (_ ∈ w.outputs))

/-- A callback calls `Close`. -/
def SessionCall.isClose : SessionCall → Bool
  | send _ => false
  | close _ _ => true

/-- The loop goes on behind a frame. -/
def Frame.GoesOn (frame : Frame) : Prop :=
  frame.opcode = .text ∨ frame.opcode = .binary ∨ frame.opcode = .ping ∨ frame.opcode = .pong

instance : DecidablePred Frame.GoesOn :=
  fun frame => inferInstanceAs (Decidable (frame.opcode = .text ∨ _ ∨ _ ∨ _))

/-- The session has neither been closed nor thrown. -/
structure SessionState.Open {σ : Type*} (s : SessionState σ) : Prop where
  outcome_eq : s.outcome = .waiting
  not_closed : ¬ s.world.Closed

namespace WebSocketSession

variable {σ : Type*} (session : WebSocketSession σ)

/-- `OnData`, unless `Close` has been called. -/
def onDataOpen (s : SessionState σ) (data : Bytes) : SessionState σ :=
  if s.world.Closed then s else session.onData s data

/-- The chunks of a new session, until `Close` has been called or `Decode` has thrown. -/
def deliverOpen (chunks : List Bytes) (w : SessionWorld σ) : SessionState σ :=
  chunks.foldl session.onDataOpen ⟨[], .waiting, w⟩

/-- **Delivery is feeding until the session is closed.** -/
theorem deliverOpen_drains (chunks : List Bytes) (w : SessionWorld σ) :
    (session.deliverOpen chunks w).Drains
      (Consumer.feedUntil frameDecoder session.receive SessionWorld.Closed chunks w) := by
  have hfold : ∀ (s : SessionState σ)
      (d : Consumer.Run UInt8 Frame StdException (SessionWorld σ)), s.Drains d →
      (chunks.foldl session.onDataOpen s).Drains (chunks.foldl
        (Consumer.feedUnless frameDecoder session.receive SessionWorld.Closed) d) := by
    induction chunks with
    | nil => exact fun _ _ h => h
    | cons chunk chunks ih =>
      intro s d h
      rw [List.foldl_cons, List.foldl_cons]
      refine ih _ _ ?_
      rw [onDataOpen, Consumer.feedUnless, h.world_eq]
      split
      · exact h
      · exact session.onData_drains h chunk
  exact hfold _ _ ⟨rfl, rfl⟩

/-! ## The frames behind a `Close` -/

/-- What the callback for a frame makes of it: the user's state behind it, and its calls of the
session. -/
def replyTo (frame : Frame) (user : σ) : σ × List SessionCall :=
  let callback :=
    if frame.opcode = .text then session.onMessage
    else if frame.opcode = .binary then session.onBinary
    else none
  (callback.map (· frame.payload.val user)).getD (user, [])

/-- The callback for a frame calls `Close`. -/
def callsClose (frame : Frame) (user : σ) : Bool :=
  (session.replyTo frame user).2.any SessionCall.isClose

/-- Nothing can be seen of a frame: it is a PONG, or a message for which there is no callback. -/
def Unnoticed (frame : Frame) : Prop :=
  frame.opcode = .pong ∨ frame.opcode = .text ∧ session.onMessage = none
    ∨ frame.opcode = .binary ∧ session.onBinary = none

/-- Nothing can be seen of the frames of a stream, up to where there is no whole frame any more or
`Decode` throws. -/
def AllUnnoticed (s : Bytes) : Prop :=
  match h : nextFrame s with
  | .more => True
  | .fail _ => True
  | .item frame rest =>
    have := length_lt_of_nextFrame h
    session.Unnoticed frame ∧ AllUnnoticed rest
termination_by s.length

/-- **A `Close` comes last**: behind the first message of the stream whose callback calls `Close`
nothing can be seen. -/
def ClosesLast (s : Bytes) (user : σ) : Prop :=
  match h : nextFrame s with
  | .more => True
  | .fail _ => True
  | .item frame rest =>
    have := length_lt_of_nextFrame h
    if session.callsClose frame user then session.AllUnnoticed rest
    else frame.GoesOn → ClosesLast rest (session.replyTo frame user).1
termination_by s.length

variable {session}

theorem allUnnoticed_of_item {s rest : Bytes} {frame : Frame}
    (h : nextFrame s = .item frame rest) :
    session.AllUnnoticed s ↔ session.Unnoticed frame ∧ session.AllUnnoticed rest := by
  rw [AllUnnoticed]
  split <;> rename_i hnext <;> cases hnext.symm.trans h
  rfl

theorem closesLast_of_item {s rest : Bytes} {frame : Frame} (h : nextFrame s = .item frame rest)
    (user : σ) :
    session.ClosesLast s user ↔ if session.callsClose frame user then session.AllUnnoticed rest
      else frame.GoesOn → session.ClosesLast rest (session.replyTo frame user).1 := by
  rw [ClosesLast]
  split <;> rename_i hnext <;> cases hnext.symm.trans h
  rfl

/-- Where there is no frame, there is nothing to be seen. -/
theorem allUnnoticed_of_no_item {s : Bytes} (h : ∀ frame rest, nextFrame s ≠ .item frame rest) :
    session.AllUnnoticed s := by
  rw [AllUnnoticed]
  split
  · trivial
  · trivial
  · rename_i hnext
    exact absurd hnext (h _ _)

theorem closesLast_of_no_item {s : Bytes} (h : ∀ frame rest, nextFrame s ≠ .item frame rest)
    (user : σ) : session.ClosesLast s user := by
  rw [ClosesLast]
  split
  · trivial
  · trivial
  · rename_i hnext
    exact absurd hnext (h _ _)

/-! ## One frame -/

theorem closeConnection_mem_outputs (calls : List SessionCall) :
    .closeConnection ∈ calls.flatMap SessionCall.outputs
      ↔ calls.any SessionCall.isClose = true := by
  have hcall (call : SessionCall) :
      .closeConnection ∈ call.outputs ↔ call.isClose = true := by
    cases call <;> simp [SessionCall.outputs, SessionCall.isClose]
  simp only [List.mem_flatMap, List.any_eq_true, hcall]

/-- **What calling a callback adds**, if it is set. -/
theorem exists_invoke (w : SessionWorld σ) (call : SessionOutput)
    (hcall : call ≠ .closeConnection) (callback : Option (σ → σ × List SessionCall)) :
    ∃ new, (w.invoke call callback).outputs = w.outputs ++ new ∧ (new = [] ↔ callback = none)
      ∧ (w.invoke call callback).user = ((callback.map (· w.user)).getD (w.user, [])).1
      ∧ (.closeConnection ∈ new
        ↔ ((callback.map (· w.user)).getD (w.user, [])).2.any SessionCall.isClose = true) := by
  cases callback with
  | none => exact ⟨[], (List.append_nil _).symm, by simp, rfl, by simp⟩
  | some callback =>
    refine ⟨call :: (callback w.user).2.flatMap SessionCall.outputs, rfl, by simp, rfl, ?_⟩
    rw [List.mem_cons, or_iff_right hcall.symm, closeConnection_mem_outputs]
    rfl

variable (session)

/-- **What a frame adds**: whether the loop goes on, the user's state, and the new outputs. -/
theorem exists_handleFrame (frame : Frame) (w : SessionWorld σ) :
    ∃ w' new, session.handleFrame frame w = (decide frame.GoesOn, w')
      ∧ w'.outputs = w.outputs ++ new ∧ (new = [] ↔ session.Unnoticed frame)
      ∧ (frame.GoesOn → w'.user = (session.replyTo frame w.user).1
        ∧ (.closeConnection ∈ new ↔ session.callsClose frame w.user = true)) := by
  unfold handleFrame callsClose replyTo Unnoticed
  dsimp only
  by_cases htext : frame.opcode = .text
  · have hgo : frame.GoesOn := .inl htext
    obtain ⟨new, hout, hnil, huser, hmem⟩ := exists_invoke w
      (.message frame.payload.val) nofun (session.onMessage.map (· frame.payload.val))
    refine ⟨_, new, by rw [if_pos htext, decide_eq_true hgo], hout, ?_, fun _ => ?_⟩
    · rw [hnil, Option.map_eq_none_iff, htext]
      simp [Opcode.text, Opcode.pong, Opcode.binary]
    · rw [huser, hmem, if_pos htext, Option.map_map]
      exact ⟨rfl, Iff.rfl⟩
  by_cases hbinary : frame.opcode = .binary
  · have hgo : frame.GoesOn := .inr (.inl hbinary)
    obtain ⟨new, hout, hnil, huser, hmem⟩ := exists_invoke w
      (.binary frame.payload.val) nofun (session.onBinary.map (· frame.payload.val))
    refine ⟨_, new, by rw [if_neg htext, if_pos hbinary, decide_eq_true hgo], hout, ?_,
      fun _ => ?_⟩
    · rw [hnil, Option.map_eq_none_iff, hbinary]
      simp [Opcode.text, Opcode.pong, Opcode.binary]
    · rw [huser, hmem, if_neg htext, if_pos hbinary, Option.map_map]
      exact ⟨rfl, Iff.rfl⟩
  rw [if_neg htext, if_neg hbinary, if_neg htext, if_neg hbinary]
  by_cases hping : frame.opcode = .ping
  · have hgo : frame.GoesOn := .inr (.inr (.inl hping))
    refine ⟨w.sendPong, [.send FrameCodec.encodePong],
      by rw [if_pos hping, decide_eq_true hgo], rfl, ?_, fun _ => ⟨rfl, by simp⟩⟩
    rw [hping]
    simp [Opcode.text, Opcode.pong, Opcode.binary, Opcode.ping]
  by_cases hpong : frame.opcode = .pong
  · have hgo : frame.GoesOn := .inr (.inr (.inr hpong))
    exact ⟨w, [], by rw [if_neg hping, if_pos hpong, decide_eq_true hgo],
      (List.append_nil _).symm, by simp [hpong], fun _ => ⟨rfl, by simp⟩⟩
  -- behind any other frame the session is closed
  have hstop : ¬ frame.GoesOn := by
    rintro (h | h | h | h) <;> contradiction
  have hseen : ¬ (frame.opcode = .pong ∨ frame.opcode = .text ∧ session.onMessage = none
      ∨ frame.opcode = .binary ∧ session.onBinary = none) := by
    rintro (h | ⟨h, -⟩ | ⟨h, -⟩) <;> contradiction
  rw [if_neg hping, if_neg hpong, decide_eq_false hstop]
  by_cases hclose : frame.opcode = .close
  · obtain ⟨code, reason⟩ := closeReason frame.payload.val
    obtain ⟨new, hout, -⟩ := exists_invoke w (.closing code reason) nofun
      (session.onClose.map (· code reason))
    rw [if_pos hclose]
    refine ⟨_, new ++ [.send (FrameCodec.encodeClose 1000 [] (by decide)), .closeConnection],
      rfl, ?_, by simp [hseen], fun hgo => absurd hgo hstop⟩
    exact (congrArg (· ++ _) hout).trans (List.append_assoc _ _ _)
  · rw [if_neg hclose]
    exact ⟨_, [.send (FrameCodec.encodeClose 1002 (lit "Invalid opcode") (by decide)),
      .closeConnection], rfl, rfl, by simp [hseen], fun hgo => absurd hgo hstop⟩

/-! ## Prefixes of a stream -/

/-- What has been done so far stays. -/
theorem outputs_prefix_drain (s : Bytes) (w : SessionWorld σ) :
    w.outputs <+: (Consumer.drain frameDecoder session.receive s w).state.outputs := by
  refine Consumer.drain_rule (P := fun w' : SessionWorld σ => w.outputs <+: w'.outputs) ?_ s
    List.prefix_rfl
  intro frame w' h
  obtain ⟨w'', new, hhandle, hout, -⟩ := session.exists_handleFrame frame w'
  rw [session.receive_snd, hhandle]
  exact h.trans (hout ▸ List.prefix_append _ _)

/-- What is done on the beginning of a stream is the beginning of what is done. -/
theorem outputs_drain_append (p t : Bytes) (w : SessionWorld σ) :
    (Consumer.drain frameDecoder session.receive p w).state.outputs
      <+: (Consumer.drain frameDecoder session.receive (p ++ t) w).state.outputs := by
  rw [← Consumer.feed_drain]
  unfold Consumer.feed
  split
  · exact session.outputs_prefix_drain _ _
  · exact List.prefix_rfl

/-- Where there is no frame, nothing is done. -/
theorem state_drain_of_no_item {s : Bytes} (h : ∀ frame rest, nextFrame s ≠ .item frame rest)
    (w : SessionWorld σ) : (Consumer.drain frameDecoder session.receive s w).state = w := by
  cases hnext : nextFrame s with
  | more => rw [Consumer.drain_more (D := frameDecoder) hnext]
  | fail e => rw [Consumer.drain_fail (D := frameDecoder) hnext]
  | item frame rest => exact absurd hnext (h frame rest)

/-- Behind a frame that the loop goes on from, and behind one that ends it. -/
theorem state_drain_item {s rest : Bytes} {frame : Frame} (hnext : nextFrame s = .item frame rest)
    {w w' : SessionWorld σ} (hhandle : session.handleFrame frame w = (decide frame.GoesOn, w')) :
    (Consumer.drain frameDecoder session.receive s w).state
      = if frame.GoesOn then (Consumer.drain frameDecoder session.receive rest w').state
        else w' := by
  rw [Consumer.drain_item (D := frameDecoder) hnext, receive, hhandle]
  by_cases hgo : frame.GoesOn
  · rw [decide_eq_true hgo, if_pos hgo]
  · rw [decide_eq_false hgo, if_neg hgo]

/-- A frame is found wherever its octets stand. -/
theorem exists_octets_of_nextFrame {s rest : Bytes} {frame : Frame}
    (h : nextFrame s = .item frame rest) :
    ∃ octets, s = octets ++ rest ∧ ∀ t, nextFrame (octets ++ t) = .item frame t := by
  obtain ⟨w, rfl, rfl⟩ := nextFrame_item h
  exact ⟨w.octets, rfl, nextFrame_octets w⟩

/-- The beginning of a stream has its first frame or none. -/
theorem nextFrame_of_append {p t rest : Bytes} {frame : Frame}
    (h : nextFrame (p ++ t) = .item frame rest) :
    (∀ frame rest, nextFrame p ≠ .item frame rest)
      ∨ ∃ p', nextFrame p = .item frame p' ∧ p' ++ t = rest := by
  by_cases hitem : ∃ frame' p', nextFrame p = .item frame' p'
  · obtain ⟨frame', p', hp⟩ := hitem
    have happend := nextFrame_item_append hp t
    rw [h] at happend
    cases happend
    exact .inr ⟨p', hp, rfl⟩
  · exact .inl fun frame rest hp => hitem ⟨frame, rest, hp⟩

theorem Unnoticed.goesOn {session : WebSocketSession σ} {frame : Frame}
    (h : session.Unnoticed frame) : frame.GoesOn := by
  rcases h with hpong | ⟨htext, -⟩ | ⟨hbinary, -⟩
  · exact .inr (.inr (.inr hpong))
  · exact .inl htext
  · exact .inr (.inl hbinary)

/-- **Nothing is done on a stream** exactly if nothing can be seen of its frames. -/
theorem outputs_drain_eq_iff (s : Bytes) (w : SessionWorld σ) :
    (Consumer.drain frameDecoder session.receive s w).state.outputs = w.outputs
      ↔ session.AllUnnoticed s := by
  induction hn : s.length using Nat.strongRecOn generalizing s w with
  | _ n ih =>
    by_cases hitem : ∃ frame rest, nextFrame s = .item frame rest
    · obtain ⟨frame, rest, hnext⟩ := hitem
      obtain ⟨w', new, hhandle, hout, hnil, -⟩ := session.exists_handleFrame frame w
      have hrec := ih rest.length (hn ▸ length_lt_of_nextFrame hnext) rest w' rfl
      rw [allUnnoticed_of_item hnext, session.state_drain_item hnext hhandle, ← hnil, ← hrec]
      constructor
      · intro hsame
        have hprefix : w'.outputs <+: w.outputs := by
          rw [← hsame]
          split
          · exact session.outputs_prefix_drain rest w'
          · exact List.prefix_rfl
        have hnew : new = [] := by
          have hlength := hprefix.length_le
          rw [hout, List.length_append] at hlength
          exact List.length_eq_zero_iff.mp (by omega)
        rw [if_pos (hnil.mp hnew).goesOn] at hsame
        exact ⟨hnew, by rw [hsame, hout, hnew, List.append_nil]⟩
      · rintro ⟨rfl, hrest⟩
        rw [if_pos (hnil.mp rfl).goesOn, hrest, hout, List.append_nil]
    · have hno : ∀ frame rest, nextFrame s ≠ .item frame rest :=
        fun frame rest hnext => hitem ⟨frame, rest, hnext⟩
      rw [session.state_drain_of_no_item hno]
      exact iff_of_true rfl (allUnnoticed_of_no_item hno)

/-- Only messages have a callback that the loop goes on from. -/
theorem goesOn_of_callsClose {session : WebSocketSession σ} {frame : Frame} {user : σ}
    (h : session.callsClose frame user = true) : frame.GoesOn := by
  by_contra hstop
  obtain ⟨htext, hbinary, -⟩ : ¬ frame.opcode = .text ∧ ¬ frame.opcode = .binary ∧ _ :=
    ⟨fun ht => hstop (.inl ht), fun hb => hstop (.inr (.inl hb)), trivial⟩
  rw [callsClose, replyTo, if_neg htext, if_neg hbinary] at h
  cases h

/-- Wherever a beginning of the stream closes the session, the rest adds nothing. -/
def CloseSettles (s : Bytes) (w : SessionWorld σ) : Prop :=
  ∀ p t, p ++ t = s → (Consumer.drain frameDecoder session.receive p w).state.Closed →
    (Consumer.drain frameDecoder session.receive p w).state.outputs
      = (Consumer.drain frameDecoder session.receive s w).state.outputs

variable {session} {w w' : SessionWorld σ} {frame : Frame}

/-- In a session that is closed already, the rest must add nothing. -/
theorem closeSettles_of_closed (hw : w.Closed) (s : Bytes) :
    session.CloseSettles s w ↔ session.AllUnnoticed s := by
  rw [← session.outputs_drain_eq_iff s w]
  constructor
  · intro h
    have hnil : (Consumer.drain frameDecoder session.receive [] w).state = w := by
      rw [Consumer.drain_nil]
    have hsettled := h [] s rfl (by rwa [hnil])
    rw [← hsettled, hnil]
  · rintro h p t rfl -
    refine (session.outputs_drain_append p t w).eq_of_length_le ?_
    rw [h]
    exact (session.outputs_prefix_drain p w).length_le

/-- A beginning of the stream that closes the session has the first frame of the stream. -/
theorem nextFrame_of_closed (hw : ¬ w.Closed) {p t rest : Bytes}
    (hnext : nextFrame (p ++ t) = .item frame rest)
    (hclosed : (Consumer.drain frameDecoder session.receive p w).state.Closed) :
    ∃ p', nextFrame p = .item frame p' ∧ p' ++ t = rest := by
  refine (nextFrame_of_append hnext).resolve_left fun hno => hw ?_
  rwa [session.state_drain_of_no_item hno] at hclosed

/-- The first frame taken off, where the loop goes on behind it. -/
theorem closeSettles_of_goesOn (hw : ¬ w.Closed) (hgo : frame.GoesOn)
    (hhandle : session.handleFrame frame w = (decide frame.GoesOn, w')) {octets : Bytes}
    (hoctets : ∀ t, nextFrame (octets ++ t) = .item frame t) (rest : Bytes) :
    session.CloseSettles (octets ++ rest) w ↔ session.CloseSettles rest w' := by
  have hdrain (t : Bytes) : (Consumer.drain frameDecoder session.receive (octets ++ t) w).state
      = (Consumer.drain frameDecoder session.receive t w').state := by
    rw [session.state_drain_item (hoctets t) hhandle, if_pos hgo]
  constructor
  · rintro h p t rfl hclosed
    have hsettled := h (octets ++ p) t (List.append_assoc ..) (by rwa [hdrain])
    rwa [hdrain, hdrain] at hsettled
  · intro h p t hp hclosed
    obtain ⟨p', -, hrest⟩ := nextFrame_of_closed hw (hp ▸ hoctets rest) hclosed
    obtain rfl : p = octets ++ p' := by
      rw [← hrest, ← List.append_assoc] at hp
      exact List.append_cancel_right hp
    rw [hdrain] at hclosed ⊢
    rw [hdrain]
    exact h p' t hrest hclosed

/-- Behind a frame that ends the loop nothing is added. -/
theorem closeSettles_of_stop (hw : ¬ w.Closed) (hstop : ¬ frame.GoesOn)
    (hhandle : session.handleFrame frame w = (decide frame.GoesOn, w')) {s rest : Bytes}
    (hnext : nextFrame s = .item frame rest) : session.CloseSettles s w := by
  rintro p t rfl hclosed
  obtain ⟨p', hp, -⟩ := nextFrame_of_closed hw hnext hclosed
  rw [session.state_drain_item hp hhandle, session.state_drain_item hnext hhandle, if_neg hstop,
    if_neg hstop]

/-- **A `Close` comes last** exactly if it settles what is done. -/
theorem closesLast_iff (s : Bytes) (hw : ¬ w.Closed) :
    session.ClosesLast s w.user ↔ session.CloseSettles s w := by
  -- the first frame of the stream decides, or the stream behind it does
  induction hn : s.length using Nat.strongRecOn generalizing s w with
  | _ n ih =>
    by_cases hitem : ∃ frame rest, nextFrame s = .item frame rest
    · obtain ⟨frame, rest, hnext⟩ := hitem
      obtain ⟨w', new, hhandle, hout, -, hgoesOn⟩ := session.exists_handleFrame frame w
      rw [closesLast_of_item hnext]
      by_cases hgo : frame.GoesOn
      · obtain ⟨huser, hmem⟩ := hgoesOn hgo
        have hlt := length_lt_of_nextFrame hnext
        obtain ⟨octets, rfl, hoctets⟩ := exists_octets_of_nextFrame hnext
        rw [closeSettles_of_goesOn hw hgo hhandle hoctets]
        by_cases hcalls : session.callsClose frame w.user = true
        · have hclosed : w'.Closed := by
            rw [SessionWorld.Closed, hout]
            exact List.mem_append_right _ (hmem.mpr hcalls)
          rw [if_pos hcalls, closeSettles_of_closed hclosed]
        · have hopen : ¬ w'.Closed := by
            rw [SessionWorld.Closed, hout, List.mem_append, not_or]
            exact ⟨hw, fun h => hcalls (hmem.mp h)⟩
          rw [if_neg hcalls, ← huser, ← ih rest.length (hn ▸ hlt) rest hopen rfl]
          exact ⟨fun h => h hgo, fun h _ => h⟩
      · rw [if_neg fun hcalls => hgo (goesOn_of_callsClose hcalls)]
        exact iff_of_true (fun h => absurd h hgo) (closeSettles_of_stop hw hgo hhandle hnext)
    · have hno : ∀ frame rest, nextFrame s ≠ .item frame rest :=
        fun frame rest hnext => hitem ⟨frame, rest, hnext⟩
      refine iff_of_true (closesLast_of_no_item hno w.user) ?_
      rintro p t rfl hclosed
      have hsame := session.outputs_drain_append p t w
      rw [session.state_drain_of_no_item hno] at hsame
      exact absurd (hsame.subset hclosed) hw

/-! ## What is seen of the stream -/

theorem not_closed_start (user : σ) : ¬ (⟨user, []⟩ : SessionWorld σ).Closed :=
  List.not_mem_nil

/-- A session that is still open has drained all of the stream. -/
theorem drains_of_open {chunks : List Bytes} {user : σ}
    (h : (session.deliverOpen chunks ⟨user, []⟩).Open) :
    (session.deliverOpen chunks ⟨user, []⟩).Drains
      (Consumer.drain frameDecoder session.receive chunks.flatten ⟨user, []⟩) := by
  have hdrains := session.deliverOpen_drains chunks ⟨user, []⟩
  obtain ⟨p, t, hs, hfeed, hend⟩ := Consumer.feedUntil_eq_drain frameDecoder session.receive
    SessionWorld.Closed chunks ⟨user, []⟩
  rw [hfeed] at hdrains
  rcases hend with rfl | hclosed
  · rwa [← hs, List.append_nil]
  · rw [← hdrains.world_eq] at hclosed
    exact absurd hclosed h.not_closed

/-- What an open session has left in its buffer. -/
theorem ending_of_open {s : SessionState σ} (h : s.Open) : s.ending = .waiting s.recvBuffer := by
  rw [SessionState.ending, h.outcome_eq]

variable (session)

/-- **When the cuts make no difference.** For every session, every stream and every start of the
user's state: any two ways of cutting the stream into chunks, of which no more are delivered once
`Close` has been called or `Decode` has thrown, have the same callbacks called and the same frames
sent, in the same order, and leave the same `recv_buffer_` where neither has happened, exactly if
nothing can be seen of the frames behind the first message whose callback calls `Close`. -/
theorem session_segmentation_iff (s : Bytes) (user : σ) :
    (∀ chunks chunks' : List Bytes, chunks.flatten = s → chunks'.flatten = s →
        let run := session.deliverOpen chunks ⟨user, []⟩
        let run' := session.deliverOpen chunks' ⟨user, []⟩
        run.world.outputs = run'.world.outputs
          ∧ (run.Open → run'.Open → run.recvBuffer = run'.recvBuffer))
      ↔ session.ClosesLast s user := by
  have hstart := not_closed_start user
  rw [closesLast_iff s hstart, CloseSettles, ← Consumer.feedUntil_agree_iff frameDecoder
    session.receive SessionWorld.Closed SessionWorld.outputs hstart s]
  have hworld (chunks : List Bytes) := (session.deliverOpen_drains chunks ⟨user, []⟩).world_eq
  constructor
  · intro h chunks chunks' hs hs'
    rw [← hworld chunks, ← hworld chunks']
    exact (h chunks chunks' hs hs').1
  · intro h chunks chunks' hs hs'
    refine ⟨?_, fun hopen hopen' => ?_⟩
    · rw [hworld chunks, hworld chunks']
      exact h chunks chunks' hs hs'
    · have hend := (drains_of_open hopen).ending_eq
      have hend' := (drains_of_open hopen').ending_eq
      rw [hs, ending_of_open hopen] at hend
      rw [hs', ending_of_open hopen', ← hend] at hend'
      exact (Consumer.Outcome.waiting.inj hend').symm

/-- With a callback that closes the session at each message, the second of two messages is passed
on if both come in one chunk, and is not if they come in two. -/
theorem message_behind_close :
    let session : WebSocketSession Unit :=
      ⟨some fun _ user => (user, [.close 1000 ⟨[], by decide⟩]), none, none⟩
    let message (text : UInt8) : Bytes := [0x81, 0x01, text]
    ¬ ∀ chunks chunks' : List Bytes, chunks.flatten = message 0x61 ++ message 0x62 →
      chunks'.flatten = message 0x61 ++ message 0x62 →
        let run := session.deliverOpen chunks ⟨(), []⟩
        let run' := session.deliverOpen chunks' ⟨(), []⟩
        run.world.outputs = run'.world.outputs
          ∧ (run.Open → run'.Open → run.recvBuffer = run'.recvBuffer) := by
  intro session message h
  have hcut := (h [message 0x61 ++ message 0x62] [message 0x61, message 0x62] rfl rfl).1
  revert hcut
  decide +kernel

end WebSocketSession
