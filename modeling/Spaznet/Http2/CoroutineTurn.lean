import Spaznet.Http2.Turn

/-!
# The turns of the coroutine dispatcher

Frames are queued whatever becomes of the socket.
-/

namespace Spaznet.Http2

open List
open Http (Bytes)

namespace ConnState

def deed (c : ConnState) : Action → Deed
  | .item (.frame frame) => if !c.serving then .other else .receive frame
  | .start n =>
    match c.dispatches[n]? with
    | some { request, stage := .scheduled } => .answer request.streamId
    | _ => .other
  | .resume n =>
    match c.dispatches[n]? with
    | some { request, stage := .ready _ } => .answer request.streamId
    | _ => .other
  | _ => .other

open Exchange (Answered Concluded Turn Turns)

variable {c : ConnState}

structure Notes (Q : List Note → Prop) (c c' : ConnState) : Prop where
  transcript : c'.transcript = c.transcript
  serving : c'.serving = true → c.serving = true
  trace : ∃ notes, Q notes ∧ c'.trace = c.trace ++ notes

theorem Notes.none (h : Q []) (c : ConnState) : Notes Q c c :=
  ⟨rfl, id, [], h, (append_nil _).symm⟩

theorem Notes.imp (hQ : ∀ notes, Q notes → Q' notes) (h : Notes Q c c') : Notes Q' c c' := by
  obtain ⟨notes, hnotes, htrace⟩ := h.trace
  exact { h with trace := ⟨notes, hQ notes hnotes, htrace⟩ }

theorem foldl_plain (frame : Frame) {effects : List Effect} (h : ∀ e ∈ effects, e.isPlain = true)
    (hpong : ∀ payload, .pong payload ∈ effects → payload.length = 8) (c : ConnState) :
    effects.foldl (perform frame) c =
      { c with trace := c.trace ++ (effects.filterMap Effect.reply?).map .wrote } := by
  induction effects generalizing c with
  | nil =>
    rw [foldl_nil, filterMap_nil, map_nil, append_nil]
  | cons effect effects ih =>
    have hrest := ih (fun e he => h e (mem_cons_of_mem _ he))
      (fun payload hp => hpong payload (mem_cons_of_mem _ hp)) (c.perform frame effect)
    have hhead := h effect mem_cons_self
    have hwrote (reply : Frame) (hreply : effect.reply? = some reply)
        (hperform : c.perform frame effect = c.record (.wrote reply)) :
        effects.foldl (perform frame) (c.perform frame effect) =
          { c with trace := c.trace ++
            ((effect :: effects).filterMap Effect.reply?).map .wrote } := by
      rw [hrest, hperform, record, filterMap_cons_some hreply,
        append_assoc]
      rfl
    cases effect with
    | opened => exact hrest
    | settingsAck => exact hwrote _ rfl rfl
    | pong payload =>
      have hlength := hpong payload mem_cons_self
      refine hwrote _ rfl ?_
      unfold buildPingFrame
      rw [if_pos hlength, if_pos rfl]
      change c.record (.wrote { length := payload.length, type := .ping, flags := Flags.ack, payload })
        = _
      rw [hlength]
    | windowUpdate | rstStream => exact hwrote _ rfl rfl
    | handoff | fatal => cases hhead

theorem goodbye_goawayPayload (last errorCode : Nat) :
    Goodbye last (.wrote { length := 8, type := .goaway, payload := goawayPayload last errorCode }) := by
  refine ⟨_, rfl, rfl, ?_⟩
  have htake : (goawayPayload last errorCode).take 4 = encodeUint32Be (last % 2 ^ 31) := rfl
  rw [Frame.lastStreamId, htake, readBe_encodeUint32Be]
  omega

theorem notes_sendGoaway (errorCode : Nat) (c : ConnState) :
    Notes (fun notes => ∀ note ∈ notes, Goodbye c.transcript.session.lastStreamIdHandled note) c
      (c.sendGoaway errorCode) := by
  unfold sendGoaway
  split
  · exact .none nofun c
  exact ⟨rfl, id, _, forall_mem_singleton.mpr (goodbye_goawayPayload _ _), rfl⟩

theorem notes_goodbyes (h : Notes (fun notes => ∀ note ∈ notes, Goodbye last note) c c')
    (h' : Notes (fun notes => ∀ note ∈ notes, Goodbye last note) c' c'') :
    Notes (fun notes => ∀ note ∈ notes, Goodbye last note) c c'' := by
  obtain ⟨notes, hnotes, htrace⟩ := h.trace
  obtain ⟨notes', hnotes', htrace'⟩ := h'.trace
  refine ⟨h'.transcript.trans h.transcript, h.serving ∘ h'.serving, notes ++ notes', ?_, ?_⟩
  · intro note hnote
    exact (mem_append.mp hnote).elim (hnotes note) (hnotes' note)
  · rw [htrace', htrace, append_assoc]

theorem notes_loopEnd (c : ConnState) :
    Notes (fun notes => ∀ note ∈ notes, Goodbye c.transcript.session.lastStreamIdHandled note) c
      c.loopEnd := by
  obtain ⟨htranscript, -, htrace⟩ := notes_sendGoaway 0 c
  exact ⟨htranscript, nofun, htrace⟩

theorem notes_end (errorCode : Nat) (socketClosed : Bool) (c : ConnState) :
    Notes (fun notes => ∀ note ∈ notes, Goodbye c.transcript.session.lastStreamIdHandled note) c
      { c.sendGoaway errorCode with socketClosed }.loopEnd := by
  have hgoaway := notes_sendGoaway errorCode c
  have hend := notes_loopEnd { c.sendGoaway errorCode with socketClosed }
  rw [show ({ c.sendGoaway errorCode with socketClosed } : ConnState).transcript = c.transcript from
    hgoaway.transcript] at hend
  exact notes_goodbyes hgoaway { hend with }

theorem notes_respond (hpack : Hpack) (n : Nat) (request : Request) (response : Response)
    (c : ConnState) :
    Notes (Answered request.streamId) c (c.respond hpack n request response) := by
  unfold respond
  dsimp only
  rw [trace_foldl_enqueueFrame]
  set frames := (response.onStream request.streamId).toFrames hpack c.maxChunk with hframes
  have hanswered : Answered request.streamId (.delivered request.streamId response.body ::
      (frames.map fun frame => { frame with length := frame.payload.length }).map .wrote) := by
    refine .response response.body fun frame hframe => ?_
    obtain ⟨frame', hframe', rfl⟩ := mem_map.mp hframe
    have htype := type_of_mem_toFrames hframe'
    exact ⟨streamId_of_mem_toFrames hframe', htype⟩
  exact ⟨rfl, id, _, hanswered, append_assoc _ _ _⟩

theorem notes_start (env : Env) (n : Nat) (request : Request) (c : ConnState) :
    Notes (Answered request.streamId) c (c.start env n request) := by
  unfold start
  dsimp only
  split
  · exact ⟨rfl, id, _, .failure, rfl⟩
  split
  next response _ =>
    obtain ⟨htranscript, hserving, htrace⟩ := notes_respond env.hpack n request response { c with
      ctx := c.ctx.incrementActiveRequests
      called := c.called ++ [request] }
    exact ⟨htranscript, hserving, htrace⟩
  · exact ⟨rfl, id, [], .nothing, (append_nil _).symm⟩

theorem turn_handleFrame (hpack : Hpack) (frame : Frame) (hserving : c.serving = true) :
    Turn hpack c.exchange (c.handleFrame hpack frame).exchange (.receive frame) := by
  set start := record (.received frame) { c with
    transcript := c.transcript.receive hpack frame } with hstart
  obtain ⟨plain, last, heffects, hplain, hlast⟩ := (shaped_effectsOf hpack c.transcript frame).split
  have hfold := foldl_plain frame hplain (Effect.length_of_pong _ heffects) start
  set mid := plain.foldl (perform frame) start
  have hconcluded : Notes (Concluded mid.transcript.session.lastStreamIdHandled last) mid
      (last.foldl (perform frame) mid) ∧
        (last.any Effect.isFatal = true → (last.foldl (perform frame) mid).serving = false) := by
    cases hlast with
    | plain => exact ⟨.none .plain mid, nofun⟩
    | handoff request =>
      exact ⟨⟨rfl, id, [], .handoff request .nothing, (append_nil _).symm⟩, nofun⟩
    | fatal errorCode => exact ⟨(notes_end errorCode _ mid).imp fun _ => .fatal errorCode, fun _ => rfl⟩
  obtain ⟨hnotes, hfatal⟩ := hconcluded
  have hresult : c.handleFrame hpack frame = last.foldl (perform frame) mid := by
    rw [← foldl_append, ← heffects]
    rfl
  obtain ⟨notes, hconcluded, htrace⟩ := hnotes.trace
  have htranscript : (c.handleFrame hpack frame).transcript = c.transcript.receive hpack frame := by
    rw [hresult, hnotes.transcript, hfold]
    rfl
  have hlast' : Concluded (c.handleFrame hpack frame).transcript.session.lastStreamIdHandled last
      notes := by
    rw [hresult, hnotes.transcript]
    exact hconcluded
  have hwhole : (c.handleFrame hpack frame).trace = c.trace ++
      (.received frame :: (plain.filterMap Effect.reply?).map .wrote ++ notes) := by
    rw [hresult, htrace, hfold, hstart, record, append_assoc, append_assoc]
    rfl
  refine .receive frame (congrArg not hserving) htranscript heffects hplain (prefix_refl _)
    hlast' (fun hopen => ⟨rfl, ?_⟩) hwhole
  cases hany : last.any Effect.isFatal with
  | false => rfl
  | true =>
    change (!(c.handleFrame hpack frame).serving) = false at hopen
    rw [hresult, hfatal hany] at hopen
    cases hopen

/-- An action is a deed, or it does nothing that can be seen. -/
theorem turns_act (env : Env) (action : Action) (hP : P c.exchange (c.deed action))
    (hlegal : ∀ frame, action = .item (.frame frame) → frame.Legal) :
    Turns env.hpack P c.exchange (act env c action).exchange := by
  have hfinished {c c' : ConnState} (h : c'.serving = true → c.serving = true) :
      c.exchange.finished = true → c'.exchange.finished = true := by
    intro hover
    change (!c.serving) = true at hover
    change (!c'.serving) = true
    cases hserving : c'.serving with
    | false => rfl
    | true =>
      rw [h hserving] at hover
      cases hover
  have hother {c' : ConnState} (hdeed : c.deed action = .other)
      (h : Notes (fun notes => ∀ note ∈ notes, note = .wrote (buildSettingsFrame ourSettings false) ∨
        Goodbye c.transcript.session.lastStreamIdHandled note) c c') :
      Turns env.hpack P c.exchange c'.exchange := by
    obtain ⟨notes, hnotes, htrace⟩ := h.trace
    rw [hdeed] at hP
    exact .single ⟨.other, hP, nofun, .other h.transcript (hfinished h.serving) hnotes htrace⟩
  have hgoodbye {c' : ConnState} (hdeed : c.deed action = .other)
      (h : Notes (fun notes => ∀ note ∈ notes,
        Goodbye c.transcript.session.lastStreamIdHandled note) c c') :
      Turns env.hpack P c.exchange c'.exchange := by
    exact hother hdeed (h.imp fun _ hnotes note hnote => .inr (hnotes note hnote))
  have hanswer {c' : ConnState} {streamId : Nat} (hdeed : c.deed action = .answer streamId)
      (h : Notes (Answered streamId) c c') : Turns env.hpack P c.exchange c'.exchange := by
    obtain ⟨notes, hnotes, htrace⟩ := h.trace
    rw [hdeed] at hP
    exact .single ⟨.answer streamId, hP, nofun,
      .answer streamId h.transcript (hfinished h.serving) hnotes htrace⟩
  cases action with
  | item item =>
    unfold act
    dsimp only
    split
    · exact .refl
    next hserving =>
    cases item with
    | greeting =>
      refine hother rfl ⟨rfl, id, _, fun note hnote => .inl ?_, rfl⟩
      exact mem_singleton.mp hnote
    | stranger => exact hother rfl ⟨rfl, nofun, [], nofun, (append_nil _).symm⟩
    | header => exact .refl
    | oversized => exact hgoodbye rfl (notes_end 0x6 (c.sendGoaway 0x6).socketClosed c)
    | frame frame =>
      have hdeed : c.deed (.item (.frame frame)) = .receive frame := if_neg hserving
      rw [hdeed] at hP
      rw [Bool.not_eq_true', Bool.not_eq_false] at hserving
      refine .single ⟨.receive frame, hP, ?_, turn_handleFrame env.hpack frame hserving⟩
      rintro _ ⟨⟩
      exact hlegal frame rfl
  | eof =>
    unfold act
    dsimp only
    split
    · exact .refl
    · exact hgoodbye rfl (notes_loopEnd c)
  | start n =>
    unfold act step
    dsimp only
    split
    next request hn =>
      have hdeed : c.deed (.start n) = .answer request.streamId := by
        unfold deed
        dsimp only
        rw [hn]
      exact hanswer hdeed (notes_start env n request c)
    · exact .refl
  | complete n response =>
    unfold act step
    dsimp only
    split
    · exact hother rfl ⟨rfl, id, [], nofun, (append_nil _).symm⟩
    · exact .refl
  | resume n =>
    unfold act step
    dsimp only
    split
    next request response hn =>
      have hdeed : c.deed (.resume n) = .answer request.streamId := by
        unfold deed
        dsimp only
        rw [hn]
      exact hanswer hdeed (notes_respond env.hpack n request response c)
    · exact .refl

end ConnState

end Spaznet.Http2
