import Spaznet.Http2.Turn

/-!
# The turns of the reactor dispatcher

Frames are written as long as the connection below is open. If it is closed, the dispatcher gives up,
so that a dispatcher that goes on has written all of them.
-/

namespace Spaznet.Http2

open List
open Http (Bytes)

namespace Http2Connection

def deed (c : Http2Connection) : Action → Deed
  | .item (.frame frame) => if c.stopped then .other else .receive frame
  | .complete n _ =>
    match c.writers[n]? with
    | some { request, response := none, .. } => .answer request.streamId
    | _ => .other
  | _ => .other

/-- The frames are written, as long as the connection below is open. -/
structure Sends (frames : List Frame) (c c' : Http2Connection) : Prop where
  transcript : c'.transcript = c.transcript
  closing : c.closing = true → c'.closing = true
  closed : c.conn.closed = true → c'.conn.closed = true ∧ c'.trace = c.trace
  tidy : (c.conn.closed = true → c.closing = true) → c'.conn.closed = true → c'.closing = true
  sent : ∃ written, written <+: frames ∧ (c'.conn.closed = false → written = frames) ∧
    c'.trace = c.trace ++ written.map .wrote

namespace Sends

variable {frames frames' : List Frame} {c c' c'' : Http2Connection}

theorem refl (c : Http2Connection) : Sends [] c c :=
  ⟨rfl, id, fun h => ⟨h, rfl⟩, id, [], prefix_refl _, fun _ => rfl, (append_nil _).symm⟩

theorem trans (h : Sends frames c c') (h' : Sends frames' c' c'') :
    Sends (frames ++ frames') c c'' := by
  obtain ⟨written, hinit, hall, htrace⟩ := h.sent
  obtain ⟨written', hinit', hall', htrace'⟩ := h'.sent
  refine ⟨h'.transcript.trans h.transcript, h'.closing ∘ h.closing, fun hclosed => ?_,
    fun hopen => h'.tidy (h.tidy hopen), ?_⟩
  · obtain ⟨hclosed', hsame⟩ := h.closed hclosed
    obtain ⟨hclosed'', hsame'⟩ := h'.closed hclosed'
    exact ⟨hclosed'', hsame'.trans hsame⟩
  · cases hmid : c'.conn.closed with
    | true =>
      obtain ⟨hclosed, hsame⟩ := h'.closed hmid
      refine ⟨written, hinit.trans (prefix_append _ _), fun hopen => ?_, hsame.trans htrace⟩
      cases hclosed.symm.trans hopen
    | false =>
      rw [hall hmid] at htrace
      refine ⟨frames ++ written', (prefix_append_right_inj frames).mpr hinit',
        fun hopen => by rw [hall' hopen], ?_⟩
      rw [htrace', htrace, map_append, append_assoc]

end Sends

variable {env : Env} {c : Http2Connection}

theorem sends_onConn
    (hclosed : c.conn.closed = true → (f c.conn).closed = true) : Sends [] c (c.onConn f) := by
  rw [onConn_eq]
  refine ⟨rfl, fun h => ?_, fun h => ⟨hclosed h, rfl⟩, fun htidy h => ?_, [], prefix_refl _,
    fun _ => rfl, (append_nil _).symm⟩
  · dsimp only
    rw [h, Bool.true_or]
  · dsimp only at h ⊢
    rw [h]
    cases hwas : c.conn.closed with
    | true => rw [htidy hwas, Bool.true_or]
    | false => exact Bool.or_true _

theorem sends_closing (c : Http2Connection) : Sends [] c { c with closing := true } :=
  ⟨rfl, fun _ => rfl, fun h => ⟨h, rfl⟩, fun _ _ => rfl, [], prefix_refl _, fun _ => rfl,
    (append_nil _).symm⟩

theorem sends_writeFrame (env : Env) (c : Http2Connection) (frame : Frame) :
    Sends [frame] c (c.writeFrame env frame) := by
  cases hclosed : c.conn.closed with
  | true =>
    have hwrite : c.writeFrame env frame = c.onConn (·.write env.socket frame.serialize) := by
      unfold writeFrame
      rw [if_pos hclosed]
    have hsame : (c.onConn (·.write env.socket frame.serialize)).conn.closed = true := by
      rw [onConn_eq]
      rw [Reactor.BufferedConnection.write_of_closed hclosed]
      exact hclosed
    have hsends : Sends [] c (c.onConn (·.write env.socket frame.serialize)) :=
      sends_onConn fun h => by rwa [Reactor.BufferedConnection.write_of_closed h]
    rw [hwrite]
    refine { hsends with sent := ⟨[], nil_prefix, fun hopen => ?_, ?_⟩ }
    · cases hsame.symm.trans hopen
    · rw [(hsends.closed hclosed).2, map_nil, append_nil]
  | false =>
    have hwrite : c.writeFrame env frame =
        (c.record (.wrote frame)).onConn (·.write env.socket frame.serialize) := by
      unfold writeFrame
      rw [if_neg (Bool.eq_false_iff.mp hclosed)]
    have hsends : Sends [] (c.record (.wrote frame)) _ :=
      sends_onConn (f := (·.write env.socket frame.serialize)) fun h => by
        cases hclosed.symm.trans h
    rw [hwrite]
    refine { hsends with
      closed := fun h => ?_
      sent := ⟨[frame], prefix_refl _, fun _ => rfl, ?_⟩ }
    · cases hclosed.symm.trans h
    · rw [onConn_eq]
      rfl

theorem sends_foldl (env : Env) (frames : List Frame) (c : Http2Connection) :
    Sends frames c (frames.foldl (writeFrame env) c) := by
  induction frames generalizing c with
  | nil => exact .refl c
  | cons frame frames ih => exact (sends_writeFrame env c frame).trans (ih _)

theorem sends_plain (env : Env) {effects : List Effect} (h : ∀ e ∈ effects, e.isPlain = true)
    (c : Http2Connection) :
    Sends (effects.filterMap Effect.reply?) c (effects.foldl (perform env) c) := by
  induction effects generalizing c with
  | nil => exact .refl c
  | cons effect effects ih =>
    have hrest := ih (fun e he => h e (mem_cons_of_mem _ he)) (c.perform env effect)
    have hhead := h effect mem_cons_self
    cases effect with
    | opened => exact hrest
    | settingsAck | pong | windowUpdate | rstStream => exact (sends_writeFrame env c _).trans hrest
    | handoff | fatal => cases hhead

structure Notes (Q : List Note → Prop) (c c' : Http2Connection) : Prop where
  transcript : c'.transcript = c.transcript
  closing : c.closing = true → c'.closing = true
  closed : c.conn.closed = true → c'.conn.closed = true
  tidy : (c.conn.closed = true → c.closing = true) → c'.conn.closed = true → c'.closing = true
  trace : ∃ notes, Q notes ∧ c'.trace = c.trace ++ notes

theorem Notes.none (h : Q []) (c : Http2Connection) : Notes Q c c :=
  ⟨rfl, id, id, id, [], h, (append_nil _).symm⟩

theorem Notes.imp (hQ : ∀ notes, Q notes → Q' notes) (h : Notes Q c c') : Notes Q' c c' := by
  obtain ⟨notes, hnotes, htrace⟩ := h.trace
  exact { h with trace := ⟨notes, hQ notes hnotes, htrace⟩ }

theorem Sends.notes {frames : List Frame} (h : Sends frames c c')
    (hQ : ∀ written, written <+: frames → Q (written.map .wrote)) :
    Notes Q c c' := by
  obtain ⟨written, hinit, -, htrace⟩ := h.sent
  exact ⟨h.transcript, h.closing, fun hclosed => (h.closed hclosed).1, h.tidy, _,
    hQ written hinit, htrace⟩

theorem prefix_singleton (h : written <+: [a]) :
    written = [] ∨ written = [a] := by
  obtain ⟨rest, hrest⟩ := h
  cases written with
  | nil => exact .inl rfl
  | cons b written =>
    obtain ⟨rfl, htail⟩ := List.cons.inj hrest
    rw [(append_eq_nil_iff.mp htail).1]
    exact .inr rfl

open Exchange (Answered Concluded Turn Turns)

theorem notes_complete (env : Env) (n : Nat) (response : Response) (c : Http2Connection)
    (hn : c.writers[n]? = some writer) :
    Notes (Answered writer.request.streamId) c (c.complete env n response) := by
  unfold complete
  split
  next request failed hn' =>
    cases hn.symm.trans hn'
    unfold onResponseReady
    dsimp only
    split
    · exact ⟨rfl, id, id, id, [], .nothing, (append_nil _).symm⟩
    have hsends := sends_foldl env
      ((response.onStream request.streamId).toFrames env.hpack c.maxChunk)
      (record (.delivered request.streamId response.body) { c with
        ctx := c.ctx.decrementActiveRequests
        writers := c.writers.set n { request, response := some response, failed } })
    obtain ⟨written, hinit, -, htrace⟩ := hsends.sent
    have hanswered : Answered request.streamId
        (.delivered request.streamId response.body :: written.map .wrote) := by
      refine .response response.body fun frame hframe => ?_
      have hmem := hinit.subset hframe
      exact ⟨streamId_of_mem_toFrames hmem, type_of_mem_toFrames hmem⟩
    refine ⟨hsends.transcript, hsends.closing, fun h => (hsends.closed h).1, hsends.tidy, _,
      hanswered, ?_⟩
    refine htrace.trans ?_
    rw [record, append_assoc]
    rfl
  · exact .none .nothing c

theorem notes_dispatchRequest (env : Env) (request : Request) (c : Http2Connection) :
    Notes (Answered request.streamId) c (c.dispatchRequest env request) := by
  unfold dispatchRequest
  dsimp only
  split
  next response _ =>
    exact { notes_complete env c.writers.length response (c.beginDispatch request)
      (getElem?_beginDispatch request c) with }
  split
  · have hsends := sends_writeFrame env { c.beginDispatch request with
      ctx := (c.beginDispatch request).ctx.decrementActiveRequests
      writers := (c.beginDispatch request).writers.set c.writers.length
        { request, failed := true } } (buildRstStreamFrame request.streamId 0x2)
    have hnotes := hsends.notes (Q := Answered request.streamId) fun written hinit => by
      obtain rfl | rfl := prefix_singleton hinit
      · exact .nothing
      · exact .failure
    exact { hnotes with }
  · exact ⟨rfl, id, id, id, [], .nothing, (append_nil _).symm⟩

theorem goodbye_buildGoawayFrame (last errorCode : Nat) :
    Goodbye last (.wrote (buildGoawayFrame last errorCode)) := by
  refine ⟨_, rfl, rfl, ?_⟩
  have htake : (buildGoawayFrame last errorCode).payload.take 4 = encodeUint32Be last := rfl
  rw [Frame.lastStreamId, htake, readBe_encodeUint32Be]
  omega

theorem notes_fatal (env : Env) (errorCode : Nat) (c : Http2Connection) :
    Notes (fun notes => ∀ note ∈ notes, Goodbye c.transcript.session.lastStreamIdHandled note) c
        (c.fatal env errorCode) ∧
      (c.fatal env errorCode).closing = true := by
  refine ⟨?_, (writes_fatal env errorCode c).2⟩
  have hgoaway : Sends [buildGoawayFrame c.transcript.session.lastStreamIdHandled errorCode] c
      (c.sendGoaway env errorCode) ∨ Sends [] c (c.sendGoaway env errorCode) := by
    unfold sendGoaway
    split
    · exact .inr (.refl c)
    · exact .inl { sends_writeFrame env { c with goawaySent := true } _ with }
  have hclosing := (c.sendGoaway env errorCode).sends_closing
  have hclose : Sends [] { c.sendGoaway env errorCode with closing := true }
      (c.fatal env errorCode) :=
    sends_onConn fun h => by rwa [Reactor.BufferedConnection.closeAfterFlush_of_closed h]
  obtain hgoaway | hgoaway := hgoaway
  · refine ((hgoaway.trans hclosing).trans hclose).notes fun written hinit note hnote => ?_
    obtain rfl | rfl := prefix_singleton hinit
    · cases hnote
    · rw [mem_singleton.mp hnote]
      exact goodbye_buildGoawayFrame _ _
  · refine ((hgoaway.trans hclosing).trans hclose).notes fun written hinit note hnote => ?_
    rw [prefix_nil.mp hinit] at hnote
    cases hnote

/-- The connection below is not closed behind the dispatcher's back. -/
def Tidy (c : Http2Connection) : Prop := c.conn.closed = true → c.closing = true

theorem turn_handleFrame (env : Env) (frame : Frame) (htidy : c.Tidy) (hclosing : c.closing = false) :
    Turn env.hpack c.exchange (c.handleFrame env frame).exchange (.receive frame) ∧
      (c.handleFrame env frame).Tidy := by
  set start := record (.received frame) { c with
    transcript := c.transcript.receive env.hpack frame } with hstart
  obtain ⟨plain, last, heffects, hplain, hlast⟩ :=
    (shaped_effectsOf env.hpack c.transcript frame).split
  have hsends := sends_plain env hplain start
  set mid := plain.foldl (perform env) start
  have hconcluded : Notes (Concluded mid.transcript.session.lastStreamIdHandled last) mid
      (last.foldl (perform env) mid) ∧
        (last.any Effect.isFatal = true → (last.foldl (perform env) mid).closing = true) := by
    cases hlast with
    | plain => exact ⟨.none .plain mid, nofun⟩
    | handoff request =>
      exact ⟨(notes_dispatchRequest env request mid).imp fun _ => .handoff request, nofun⟩
    | fatal errorCode =>
      obtain ⟨hnotes, hended⟩ := notes_fatal env errorCode mid
      exact ⟨hnotes.imp fun _ => .fatal errorCode, fun _ => hended⟩
  obtain ⟨hnotes, hfatal⟩ := hconcluded
  have hresult : c.handleFrame env frame = last.foldl (perform env) mid := by
    rw [← foldl_append, ← heffects]
    rfl
  have htidy' : (c.handleFrame env frame).Tidy := by
    rw [hresult]
    exact hnotes.tidy (hsends.tidy htidy)
  obtain ⟨written, hinit, hall, htrace⟩ := hsends.sent
  obtain ⟨notes, hconcluded, htrace'⟩ := hnotes.trace
  have htranscript : (c.handleFrame env frame).transcript =
      c.transcript.receive env.hpack frame := by
    rw [hresult, hnotes.transcript, hsends.transcript]
    rfl
  have hlast' : Concluded (c.handleFrame env frame).transcript.session.lastStreamIdHandled last
      notes := by
    rw [hresult, hnotes.transcript]
    exact hconcluded
  have hwhole : (c.handleFrame env frame).trace =
      c.trace ++ (.received frame :: written.map .wrote ++ notes) := by
    rw [hresult, htrace', htrace, hstart, record, append_assoc, append_assoc]
    rfl
  refine ⟨.receive frame hclosing htranscript heffects hplain hinit hlast' (fun hopen => ?_) hwhole,
    htidy'⟩
  constructor
  · refine hall ?_
    cases hclosed : mid.conn.closed with
    | false => rfl
    | true =>
      have hended := htidy' (by rw [hresult]; exact hnotes.closed hclosed)
      cases hended.symm.trans hopen
  · rw [hresult] at hopen
    cases hany : last.any Effect.isFatal with
    | false => rfl
    | true => cases (hfatal hany).symm.trans hopen

theorem turns_act (env : Env) (action : Action) (htidy : c.Tidy) (hP : P c.exchange (c.deed action))
    (hlegal : ∀ frame, action = .item (.frame frame) → frame.Legal) :
    Turns env.hpack P c.exchange (act env c action).exchange ∧ (act env c action).Tidy := by
  have hother {c' : Http2Connection} (hdeed : c.deed action = .other)
      (h : Notes (fun notes => ∀ note ∈ notes, note = .wrote (buildSettingsFrame ourSettings false) ∨
        Goodbye c.transcript.session.lastStreamIdHandled note) c c') :
      Turns env.hpack P c.exchange c'.exchange ∧ c'.Tidy := by
    obtain ⟨notes, hnotes, htrace⟩ := h.trace
    rw [hdeed] at hP
    exact ⟨.single ⟨.other, hP, by rintro _ ⟨⟩, .other h.transcript h.closing hnotes htrace⟩, h.tidy htidy⟩
  have hquiet {c' : Http2Connection} (hdeed : c.deed action = .other) (h : Sends [] c c') :
      Turns env.hpack P c.exchange c'.exchange ∧ c'.Tidy := by
    refine hother hdeed (h.notes fun written hinit note hnote => ?_)
    rw [prefix_nil.mp hinit] at hnote
    cases hnote
  cases action with
  | item item =>
    unfold act
    dsimp only
    split
    · exact ⟨.refl, htidy⟩
    next hgoes =>
    have hopen := Bool.eq_false_iff.mpr hgoes
    rw [stopped, Bool.or_eq_false_iff] at hopen
    cases item with
    | greeting =>
      refine hother rfl ((sends_writeFrame env c _).notes fun written hinit note hnote => .inl ?_)
      obtain rfl | rfl := prefix_singleton hinit
      · cases hnote
      · exact mem_singleton.mp hnote
    | stranger =>
      have hclose : Sends [] { c with closing := true } (c.takeItem env .stranger) :=
        sends_onConn fun h => by rwa [Reactor.BufferedConnection.close_of_closed h]
      exact hquiet rfl (c.sends_closing.trans hclose)
    | header => exact ⟨.refl, htidy⟩
    | oversized =>
      exact hother rfl ((notes_fatal env 0x6 c).1.imp
        fun _ hgoodbye note hnote => .inr (hgoodbye note hnote))
    | frame frame =>
      have hdeed : c.deed (.item (.frame frame)) = .receive frame := if_neg hgoes
      rw [hdeed] at hP
      obtain ⟨hturn, htidy'⟩ := turn_handleFrame env frame htidy hopen.1
      refine ⟨.single ⟨.receive frame, hP, ?_, hturn⟩, htidy'⟩
      rintro _ ⟨⟩
      exact hlegal frame rfl
  | fail =>
    exact hquiet rfl (sends_onConn fun h => by rwa [Reactor.BufferedConnection.close_of_closed h])
  | writable =>
    exact hquiet rfl
      (sends_onConn fun h => by rwa [Reactor.BufferedConnection.onWritable_of_closed h])
  | complete n response =>
    by_cases hn : ∃ request failed, c.writers[n]? = some { request, response := none, failed }
    · obtain ⟨request, failed, hn⟩ := hn
      have hdeed : c.deed (.complete n response) = .answer request.streamId := by
        unfold deed
        dsimp only
        rw [hn]
      rw [hdeed] at hP
      have hnotes := notes_complete env n response c hn
      obtain ⟨notes, hanswered, htrace⟩ := hnotes.trace
      exact ⟨.single ⟨.answer request.streamId, hP, by rintro _ ⟨⟩,
        .answer _ hnotes.transcript hnotes.closing hanswered htrace⟩, hnotes.tidy htidy⟩
    · have hsame : c.complete env n response = c := by
        unfold complete
        split
        next request failed hn' => exact absurd ⟨request, failed, hn'⟩ hn
        · rfl
      rw [act, hsame]
      exact ⟨.refl, htidy⟩

end Http2Connection

end Spaznet.Http2
