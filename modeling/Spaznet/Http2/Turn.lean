import Spaznet.Http2.Actions

/-!
# Turns

What a dispatcher writes, in more detail than an exchange has it: replies to the effects of a frame in
their order, then the answer to a request or the GOAWAY frame of a connection error. A deed is what a
dispatcher is about to do; a condition on deeds restricts clients and handlers.
-/

namespace Spaznet.Http2

open List Session
open Http (Bytes)

/-! ## The effects of a frame -/

/-- The frame that carries out an effect, unless a request or the end of the connection is at
stake. -/
def Effect.reply? : Effect → Option Frame
  | .settingsAck => some (buildSettingsFrame ourSettings true)
  | .pong payload => some (buildPingFrame payload true)
  | .windowUpdate streamId increment => some (buildWindowUpdateFrame streamId increment)
  | .rstStream streamId errorCode => some (buildRstStreamFrame streamId errorCode)
  | .opened _ | .handoff _ | .fatal _ => none

theorem type_of_reply {effect : Effect} (h : effect.reply? = some frame) :
    frame.type ∈ [.settings, .ping, .windowUpdate, .rstStream] := by
  cases effect with
  | settingsAck | pong | windowUpdate | rstStream =>
    cases h
    exact mem_of_elem_eq_true rfl
  | opened | handoff | fatal => cases h

def Effect.isPlain : Effect → Bool
  | .handoff _ | .fatal _ => false
  | _ => true

/-- Only the last effect of a frame dispatches a request or ends the connection. -/
inductive Shaped : List Effect → Prop where
  | plain {effects : List Effect} (h : ∀ e ∈ effects, e.isPlain = true) : Shaped effects
  | handoff {effects : List Effect} (h : ∀ e ∈ effects, e.isPlain = true) (request : Request) :
    Shaped (effects ++ [.handoff request])
  | fatal {effects : List Effect} (h : ∀ e ∈ effects, e.isPlain = true) (errorCode : Nat) :
    Shaped (effects ++ [.fatal errorCode])

/-- The effect that is not plain, if there is one. -/
inductive LastEffect : List Effect → Prop where
  | plain : LastEffect []
  | handoff (request : Request) : LastEffect [.handoff request]
  | fatal (errorCode : Nat) : LastEffect [.fatal errorCode]

theorem Shaped.split (h : Shaped effects) :
    ∃ plain last, effects = plain ++ last ∧ (∀ e ∈ plain, e.isPlain = true) ∧ LastEffect last := by
  cases h with
  | plain h => exact ⟨effects, [], (append_nil _).symm, h, .plain⟩
  | @handoff plain h request => exact ⟨plain, _, rfl, h, .handoff request⟩
  | @fatal plain h errorCode => exact ⟨plain, _, rfl, h, .fatal errorCode⟩

theorem shaped_settle (s : Session) (streamId : Nat) (verdict : Verdict)
    (h : ∀ e ∈ effects, e.isPlain = true) : Shaped (effects ++ (s.settle streamId verdict).2) := by
  cases verdict with
  | fatal errorCode => exact .fatal h errorCode
  | reset errorCode => exact .plain (forall_mem_append.mpr ⟨h, forall_mem_singleton.mpr rfl⟩)
  | keep stream => exact .plain (forall_mem_append.mpr ⟨h, forall_mem_nil _⟩)
  | finish stream => exact .handoff h stream.request

theorem shaped_of_handles {s : Session} {result : Session × List Effect}
    (h : s.Handles hpack frame result) : Shaped result.2 := by
  cases h with
  | apart _ _ _ heffects =>
    refine .plain fun e he => ?_
    obtain rfl | ⟨payload, rfl⟩ := heffects e he
    · rfl
    · rfl
  | fatal errorCode => exact .fatal (forall_mem_nil _) errorCode
  | dropped => exact .plain nofun
  | reset errorCode => exact .plain (forall_mem_singleton.mpr rfl)
  | opens =>
    have hopened : ∀ e ∈ [Effect.opened frame.streamId], e.isPlain = true :=
      forall_mem_singleton.mpr rfl
    exact shaped_settle s frame.streamId _ hopened
  | reads _ _ hcredit =>
    refine shaped_settle s frame.streamId _ fun e he => ?_
    obtain ⟨id, increment, rfl⟩ := hcredit e he
    rfl

theorem shaped_effectsOf (hpack : Hpack) (t : Transcript) (frame : Frame) :
    Shaped (t.effectsOf hpack frame) :=
  shaped_of_handles (handles_handleFrame hpack frame _)

/-- What a frame can have as an effect. -/
inductive Effect.Caused (frame : Frame) : Effect → Prop where
  | opened (htype : frame.type = .headers) : Caused frame (.opened frame.streamId)
  | settingsAck : Caused frame .settingsAck
  | pong (hlength : frame.payload.length = 8) : Caused frame (.pong frame.payload)
  | windowUpdate (htype : frame.type = .data) (streamId increment : Nat) :
    Caused frame (.windowUpdate streamId increment)
  | rstStream (errorCode : Nat) : Caused frame (.rstStream frame.streamId errorCode)
  | handoff (request : Request) : Caused frame (.handoff request)
  | fatal (errorCode : Nat) : Caused frame (.fatal errorCode)

namespace Effect

variable (hpack : Hpack) (s : Session)

theorem caused_singleton {effect : Effect} (h : effect.Caused frame) :
    ∀ e ∈ [effect], e.Caused frame := by
  intro e he
  rw [mem_singleton.mp he]
  exact h

theorem caused_settle (verdict : Verdict) :
    ∀ e ∈ (s.settle frame.streamId verdict).2, e.Caused frame := by
  cases verdict with
  | fatal errorCode => exact caused_singleton (.fatal errorCode)
  | reset errorCode => exact caused_singleton (.rstStream errorCode)
  | keep => exact forall_mem_nil _
  | finish stream => exact caused_singleton (.handoff stream.request)

section
variable (frame : Frame)

theorem caused_onSettings : ∀ e ∈ (s.onSettings frame).2, e.Caused frame := by
  unfold onSettings
  split
  · exact caused_singleton (.fatal _)
  split
  · split
    · exact caused_singleton (.fatal _)
    · exact forall_mem_nil _
  · split
    · exact caused_singleton (.fatal _)
    · exact caused_singleton .settingsAck

theorem caused_onPing : ∀ e ∈ (s.onPing frame).2, e.Caused frame := by
  unfold onPing
  split
  · exact caused_singleton (.fatal _)
  split
  · exact caused_singleton (.fatal _)
  next hlength =>
    split
    · exact forall_mem_nil _
    · exact caused_singleton (.pong (not_not.mp hlength))

theorem caused_onWindowUpdate : ∀ e ∈ (s.onWindowUpdate frame).2, e.Caused frame := by
  unfold onWindowUpdate
  dsimp only
  split
  · exact caused_singleton (.fatal _)
  split
  · split
    · exact caused_singleton (.fatal _)
    · exact caused_singleton (.rstStream _)
  split
  · split
    · exact caused_singleton (.fatal _)
    · exact forall_mem_nil _
  · split
    · exact forall_mem_nil _
    · exact caused_settle s _

theorem caused_onRstStream : ∀ e ∈ (s.onRstStream frame).2, e.Caused frame := by
  unfold onRstStream
  split
  · exact caused_singleton (.fatal _)
  split
  · exact caused_singleton (.fatal _)
  · exact forall_mem_nil _

end

theorem caused_onHeaders (htype : frame.type = .headers) :
    ∀ e ∈ (s.onHeaders hpack frame).2, e.Caused frame := by
  unfold onHeaders
  split
  · exact caused_singleton (.fatal _)
  split
  · exact caused_settle s _
  split
  · exact caused_singleton (.rstStream _)
  · exact forall_mem_cons.mpr ⟨.opened htype, caused_settle s _⟩

theorem caused_onContinuation (frame : Frame) :
    ∀ e ∈ (s.onContinuation hpack frame).2, e.Caused frame := by
  unfold onContinuation
  split
  · exact caused_singleton (.fatal _)
  · exact caused_settle s _

theorem caused_onData (htype : frame.type = .data) : ∀ e ∈ (s.onData frame).2, e.Caused frame := by
  unfold onData
  split
  · exact caused_singleton (.fatal _)
  intro e he
  obtain he | he := mem_append.mp he
  · obtain ⟨_, _, rfl⟩ := refill_credit _ he
    exact .windowUpdate htype _ _
  · exact caused_settle s _ e he

theorem caused_handleFrame (frame : Frame) :
    ∀ e ∈ (s.handleFrame hpack frame).2, e.Caused frame := by
  unfold handleFrame
  split
  · exact caused_onSettings s frame
  · exact caused_onPing s frame
  · exact caused_onWindowUpdate s frame
  · exact caused_onRstStream s frame
  · exact caused_singleton (.fatal _)
  next htype => exact caused_onHeaders hpack s htype
  · exact caused_onContinuation hpack s frame
  next htype => exact caused_onData s htype
  all_goals exact forall_mem_nil _

theorem length_of_pong {t : Transcript} (h : t.effectsOf hpack frame = plain ++ last)
    (payload : Bytes) (hpong : .pong payload ∈ plain) : payload.length = 8 := by
  have hmem : .pong payload ∈ t.effectsOf hpack frame := by
    rw [h]
    exact mem_append_left _ hpong
  cases caused_handleFrame hpack _ frame _ hmem with
  | pong hlength => exact hlength

end Effect

/-! ## Deeds -/

/-- What a dispatcher is about to do. -/
inductive Deed where
  | receive (frame : Frame)
  /-- A request on this stream is seen to: its handler is called, or has completed the response. -/
  | answer (streamId : Nat)
  | other
  deriving DecidableEq

/-- The last stream of a GOAWAY frame, a number of 31 bits. -/
def Frame.lastStreamId (frame : Frame) : Nat := readBe (frame.payload.take 4) % 2 ^ 31

/-- A GOAWAY frame that names a stream. -/
def Goodbye (last : Nat) (note : Note) : Prop :=
  ∃ frame : Frame, note = .wrote frame ∧ frame.type = .goaway ∧ frame.lastStreamId = last % 2 ^ 31

namespace Exchange

/-- What is written for a request: nothing yet, its response, or a reset because its handler has
thrown. -/
inductive Answered (streamId : Nat) : List Note → Prop where
  | nothing : Answered streamId []
  | response (body : Bytes) {frames : List Frame}
    (hframes : ∀ frame ∈ frames,
      frame.streamId = streamId ∧ (frame.type = .headers ∨ frame.type = .data)) :
    Answered streamId (.delivered streamId body :: frames.map .wrote)
  | failure : Answered streamId [.wrote (buildRstStreamFrame streamId 0x2)]

/-- What the last effect of a frame has written. -/
inductive Concluded (last : Nat) : List Effect → List Note → Prop where
  | plain : Concluded last [] []
  | handoff (request : Request) {notes : List Note} (h : Answered request.streamId notes) :
    Concluded last [.handoff request] notes
  | fatal (errorCode : Nat) {notes : List Note} (h : ∀ note ∈ notes, Goodbye last note) :
    Concluded last [.fatal errorCode] notes

/-- One deed, and what is written with it. -/
inductive Turn (hpack : Hpack) (e e' : Exchange) : Deed → Prop where
  | receive (frame : Frame) (hopen : e.finished = false) {plain last : List Effect}
    {written : List Frame} {notes : List Note}
    (htranscript : e'.transcript = e.transcript.receive hpack frame)
    (heffects : e.transcript.effectsOf hpack frame = plain ++ last)
    (hplain : ∀ effect ∈ plain, effect.isPlain = true)
    (hwritten : written <+: plain.filterMap Effect.reply?)
    (hlast : Concluded e'.transcript.session.lastStreamIdHandled last notes)
    (hall : e'.finished = false →
      written = plain.filterMap Effect.reply? ∧ last.any Effect.isFatal = false)
    (htrace : e'.trace = e.trace ++ (.received frame :: written.map .wrote ++ notes)) :
    Turn hpack e e' (.receive frame)
  | answer (streamId : Nat) {notes : List Note} (htranscript : e'.transcript = e.transcript)
    (hfinished : e.finished = true → e'.finished = true) (hnotes : Answered streamId notes)
    (htrace : e'.trace = e.trace ++ notes) : Turn hpack e e' (.answer streamId)
  | other {notes : List Note} (htranscript : e'.transcript = e.transcript)
    (hfinished : e.finished = true → e'.finished = true)
    (hnotes : ∀ note ∈ notes, note = .wrote (buildSettingsFrame ourSettings false) ∨
      Goodbye e.transcript.session.lastStreamIdHandled note)
    (htrace : e'.trace = e.trace ++ notes) : Turn hpack e e' .other

theorem Answered.no_received (h : Answered streamId notes) :
    ∀ note ∈ notes, ∀ frame, note ≠ .received frame := by
  rintro note hnote frame rfl
  cases h with
  | nothing => cases hnote
  | response body hframes =>
    obtain ⟨_, _, heq⟩ := mem_map.mp ((mem_cons.mp hnote).resolve_left nofun)
    cases heq
  | failure => cases mem_singleton.mp hnote

theorem Concluded.no_received (h : Concluded last effects notes) :
    ∀ note ∈ notes, ∀ frame, note ≠ .received frame := by
  cases h with
  | plain => exact nofun
  | handoff request h => exact h.no_received
  | fatal errorCode h =>
    rintro note hnote frame rfl
    obtain ⟨_, heq, -⟩ := h _ hnote
    cases heq

theorem wrote_ne_received (written : List Frame) :
    ∀ note ∈ written.map Note.wrote, ∀ frame, note ≠ .received frame := by
  rintro note hnote frame rfl
  obtain ⟨_, _, heq⟩ := mem_map.mp hnote
  cases heq

theorem Turn.receivedFrames_eq (h : Turn hpack e e' deed) :
    receivedFrames e'.trace =
      receivedFrames e.trace ++ match deed with | .receive frame => [frame] | _ => [] := by
  cases h with
  | @receive frame hopen plain last written notes _ _ _ _ hlast _ htrace =>
    rw [htrace, receivedFrames_append, receivedFrames_append]
    rw [receivedFrames_eq_nil hlast.no_received, append_nil]
    change receivedFrames e.trace ++ frame :: receivedFrames (written.map .wrote) = _
    rw [receivedFrames_eq_nil (wrote_ne_received written)]
  | answer _ _ _ hnotes htrace =>
    rw [htrace, receivedFrames_append, receivedFrames_eq_nil hnotes.no_received]
  | @other notes _ _ hnotes htrace =>
    have hnone : ∀ note ∈ notes, ∀ frame, note ≠ .received frame := by
      rintro note hnote frame rfl
      obtain heq | ⟨_, heq, -⟩ := hnotes _ hnote
      · cases heq
      · cases heq
    rw [htrace, receivedFrames_append, receivedFrames_eq_nil hnone]

theorem Turn.transcript_eq (h : Turn hpack e e' deed)
    (he : e.transcript = .ofFrames hpack (receivedFrames e.trace)) :
    e'.transcript = .ofFrames hpack (receivedFrames e'.trace) := by
  rw [h.receivedFrames_eq]
  cases h with
  | receive frame _ htranscript =>
    rw [htranscript, Transcript.ofFrames, Machine.run_append, ← Transcript.ofFrames, ← he]
    rfl
  | answer _ htranscript | other htranscript =>
    rw [htranscript, he, append_nil]

/-- The dispatcher goes on, and every deed meets the condition. Frames are legal. -/
def Turns (hpack : Hpack) (P : Exchange → Deed → Prop) : Exchange → Exchange → Prop :=
  Relation.ReflTransGen fun e e' =>
    ∃ deed, P e deed ∧ (∀ frame, deed = .receive frame → frame.Legal) ∧ Turn hpack e e' deed

/-- **Invariant rule.** What every turn keeps holds of the whole exchange. -/
theorem Turns.invariant {I : Exchange → Prop}
    (hturn : ∀ e e' deed, I e → P e deed → (∀ frame, deed = .receive frame → frame.Legal) →
      Turn hpack e e' deed → I e') (h : Turns hpack P e e') (he : I e) : I e' := by
  induction h with
  | refl => exact he
  | tail _ hstep ih =>
    obtain ⟨deed, hP, hlegal, h⟩ := hstep
    exact hturn _ _ deed ih hP hlegal h

end Exchange

theorem type_of_mem_toFrames {response : Response}
    (h : frame ∈ response.toFrames hpack maxFrameSize) :
    frame.type = .headers ∨ frame.type = .data := by
  obtain rfl | h := mem_cons.mp h
  · exact .inl rfl
  · exact .inr (forall_mem_dataFrames (P := (·.type = .data)) (fun _ _ => rfl) _ _ frame h)

end Spaznet.Http2
