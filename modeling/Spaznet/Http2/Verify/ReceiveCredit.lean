import Spaznet.Http2.Conduct
import Spaznet.Http2.Verify.SendWindow

/-!
# The receive window of the connection

A DATA frame takes from the window of the connection and WINDOW_UPDATE frames on stream 0 give back.
A frame that is refused, for its padding or for the size of the body, is reset without credit; what
it took is lost to the peer.
-/

namespace Spaznet.Http2

open List Session

/-! ## What is taken and what is given back -/

def charged (trace : List Note) : Nat := ((receivedFrames trace).map Frame.flowLength).sum

/-- What WINDOW_UPDATE frames have given back to the peer for the connection. -/
def returned (trace : List Note) : Nat := ((writtenFrames trace).map (Frame.increment 0)).sum

/-- A DATA frame is refused: its padding takes all of it, or the body would be too long. -/
def Stream.rejects (stream : Stream) (frame : Frame) : Bool :=
  frame.unpadded.all fun data => stream.body.length + data.length > kMaxBodyBytes

/-- The frame has a payload for a stream of the table, and is refused. -/
def Session.rejects (s : Session) (frame : Frame) : Bool :=
  frame.type = .data && frame.payload ≠ [] &&
    (s.streams.find? frame.streamId).any (Stream.rejects · frame)

theorem returned_append (trace trace' : List Note) :
    returned (trace ++ trace') = returned trace + returned trace' := by
  unfold returned
  rw [writtenFrames_append, map_append, sum_append]

theorem returned_eq_zero (h : ∀ frame, .wrote frame ∈ notes → frame.type ≠ .windowUpdate) :
    returned notes = 0 := by
  refine sum_eq_zero fun n hn => ?_
  obtain ⟨frame, hframe, rfl⟩ := mem_map.mp hn
  obtain ⟨note, hnote, heq⟩ := mem_filterMap.mp hframe
  cases note with
  | wrote frame' =>
    cases heq
    exact if_neg fun hupdate => h frame hnote hupdate.1
  | received | delivered => cases heq

def refund (effects : List Effect) : Nat :=
  ((effects.filterMap Effect.reply?).map (Frame.increment 0)).sum

theorem refund_append (effects effects' : List Effect) :
    refund (effects ++ effects') = refund effects + refund effects' := by
  unfold refund
  rw [filterMap_append, map_append, sum_append]

theorem refund_eq_zero
    (h : ∀ e ∈ effects, ∀ streamId increment, e ≠ .windowUpdate streamId increment) :
    refund effects = 0 := by
  refine sum_eq_zero fun n hn => ?_
  obtain ⟨frame, hframe, rfl⟩ := mem_map.mp hn
  obtain ⟨effect, heffect, hreply⟩ := mem_filterMap.mp hframe
  refine if_neg fun hupdate => ?_
  cases effect with
  | windowUpdate streamId increment => exact h _ heffect streamId increment rfl
  | settingsAck | pong | rstStream =>
    cases hreply
    cases hupdate.1
  | opened | handoff | fatal => cases hreply

/-! ## One frame -/

theorem Stream.rejects_of_reset {stream : Stream} (h : stream.onData frame = .reset errorCode) :
    stream.rejects frame = true := by
  unfold onData at h
  unfold rejects
  split at h
  · cases h
  split at h
  next hpadding => rw [hpadding, Option.all_none]
  next data hdata =>
    split at h
    next hlong => rw [hdata, Option.all_some, decide_eq_true hlong]
    dsimp only at h
    split at h
    · cases h
    · cases h

theorem Stream.not_rejects_of_stream {stream stream' : Stream}
    (h : (stream.onData frame).stream? = some stream') : stream.rejects frame = false := by
  unfold onData at h
  unfold rejects
  split at h
  · cases h
  split at h
  · cases h
  next data hdata =>
    split at h
    · cases h
    next hshort => rw [hdata, Option.all_some, decide_eq_false hshort]

theorem refund_refill (hlegal : frame.Legal) (hid : frame.streamId ≠ 0)
    (hverdict : verdict.stream? = some stream) :
    refund (refill frame verdict) = frame.payload.length := by
  have hrefill : refill frame verdict =
      if frame.payload ≠ [] then
        [.windowUpdate 0 frame.payload.length,
          .windowUpdate frame.streamId frame.payload.length]
      else [] := by
    cases verdict with
    | fatal | reset => cases hverdict
    | keep => rfl
    | finish => rfl
  rw [hrefill]
  split
  next hne =>
    have hlength := hlegal.length_eq ▸ hlegal.length_le
    have hself : (buildWindowUpdateFrame 0 frame.payload.length).increment 0 =
        frame.payload.length := by
      rw [Frame.increment, if_pos ⟨rfl, rfl, rfl⟩]
      unfold Frame.windowIncrement
      rw [buildWindowUpdateFrame, readBe_encodeUint32Be]
      have : ourSettings.maxFrameSize = 16384 := rfl
      omega
    have hstream : (buildWindowUpdateFrame frame.streamId frame.payload.length).increment 0 = 0 :=
      if_neg fun hupdate => hid hupdate.2.1
    change (buildWindowUpdateFrame 0 frame.payload.length).increment 0 +
      ((buildWindowUpdateFrame frame.streamId frame.payload.length).increment 0 + 0) = _
    rw [hself, hstream, Nat.add_zero]
  next hnil =>
    rw [not_not.mp hnil]
    rfl

/-- A DATA frame is paid for in full unless it is refused. -/
theorem refund_onData {s : Session} (hzero : s.streams.find? 0 = none) (hlegal : frame.Legal)
    (htype : frame.type = .data) (hgoes : (s.onData frame).2.any Effect.isFatal = false) :
    refund (s.onData frame).2 = if s.rejects frame then 0 else frame.payload.length := by
  cases hlive : s.streams.find? frame.streamId with
  | none =>
    rw [onData, hlive] at hgoes
    cases hgoes
  | some stream =>
    have hid : frame.streamId ≠ 0 := by
      intro hid
      rw [hid, hzero] at hlive
      cases hlive
    have heffects : (s.onData frame).2 = refill frame (stream.onData frame) ++
        (s.settle frame.streamId (stream.onData frame)).2 := by
      rw [onData, hlive]
    have hrejects : s.rejects frame =
        (decide (frame.payload ≠ []) && stream.rejects frame) := by
      rw [rejects, hlive, decide_eq_true htype]
      rfl
    have haccepts (stream' : Stream) (h : (stream.onData frame).stream? = some stream') :
        refund (refill frame (stream.onData frame)) =
          if s.rejects frame then 0 else frame.payload.length := by
      rw [hrejects, Stream.not_rejects_of_stream h, Bool.and_false]
      exact refund_refill hlegal hid h
    rw [heffects, refund_append]
    cases hverdict : stream.onData frame with
    | fatal errorCode =>
      rw [heffects, hverdict] at hgoes
      cases hgoes
    | reset errorCode =>
      rw [hrejects, Stream.rejects_of_reset hverdict, Bool.and_true]
      change 0 = _
      split
      · rfl
      next hnil => rw [not_not.mp (of_decide_eq_false (Bool.eq_false_iff.mpr hnil)), length_nil]
    | keep stream' | finish stream' =>
      rw [hverdict] at haccepts
      exact haccepts stream' rfl

theorem Session.find?_zero_of_handles {s : Session}
    (h : s.Handles hpack frame result) (hs : s.streams.find? 0 = none) :
    result.1.streams.find? 0 = none := by
  cases h with
  | apart _ hstreams => rw [hstreams, hs]
  | fatal => exact hs
  | dropped =>
    rw [OrdMap.find?_erase, hs]
    exact ite_self none
  | reset =>
    rw [rstStream, OrdMap.find?_erase, hs]
    exact ite_self none
  | opens _ hid => rw [find?_settle_of_ne s _ hid.symm, hs]
  | reads hlive =>
    rw [find?_settle_of_ne s _ ?_, hs]
    rintro hid
    rw [← hid, hs] at hlive
    cases hlive

theorem Transcript.find?_zero (hpack : Hpack) (frames : List Frame) :
    (ofFrames hpack frames).session.streams.find? 0 = none := by
  refine Machine.run_induction (I := fun t : Transcript => t.session.streams.find? 0 = none)
    (fun t frame ht => ?_) rfl frames
  refine find?_zero_of_handles (handles_handleFrame hpack frame _) ?_
  rwa [streams_charge]

/-- What a frame takes it gives back, unless it is refused. -/
theorem refund_effectsOf {t : Transcript} (hzero : t.session.streams.find? 0 = none)
    (hlegal : frame.Legal) (hgoes : (t.effectsOf hpack frame).any Effect.isFatal = false) :
    refund (t.effectsOf hpack frame) =
      if t.session.rejects frame then 0 else frame.flowLength := by
  have hstreams := streams_charge frame t.session
  by_cases htype : frame.type = .data
  · have hdata : t.effectsOf hpack frame = ((t.session.charge frame).onData frame).2 := by
      rw [Transcript.effectsOf, handleFrame, htype]
    have hrejects : (t.session.charge frame).rejects frame = t.session.rejects frame := by
      rw [rejects, hstreams, ← rejects]
    rw [hdata] at hgoes ⊢
    rw [refund_onData (hstreams ▸ hzero) hlegal htype hgoes, hrejects, Frame.flowLength,
      if_pos htype]
  · rw [flowLength_of_ne htype, ite_self]
    refine refund_eq_zero fun e he => ?_
    rintro _ _ rfl
    cases Effect.caused_handleFrame hpack _ frame _ he with
    | windowUpdate hdata => exact htype hdata

theorem flowLength_pos_of_rejects {s : Session} (h : s.rejects frame = true) :
    0 < frame.flowLength := by
  unfold rejects at h
  rw [Bool.and_eq_true, Bool.and_eq_true, decide_eq_true_eq, decide_eq_true_eq] at h
  rw [Frame.flowLength, if_pos h.1.1]
  exact length_pos_of_ne_nil h.1.2

/-! ## The whole connection -/

def AllAccepted (hpack : Hpack) (frames : List Frame) : Prop :=
  Machine.AllSteps (Transcript.receive hpack) (fun t frame => t.session.rejects frame = false) {}
    frames
  deriving Decidable

/-- The window is whole exactly if no frame was refused. -/
structure Balanced (hpack : Hpack) (e : Exchange) : Prop where
  transcript : e.transcript = .ofFrames hpack (receivedFrames e.trace)
  le : e.finished = false → returned e.trace ≤ charged e.trace
  eq_iff : e.finished = false →
    (returned e.trace = charged e.trace ↔ AllAccepted hpack (receivedFrames e.trace))

theorem returned_answered (h : Exchange.Answered streamId notes) : returned notes = 0 := by
  refine returned_eq_zero fun frame hframe hupdate => ?_
  cases h with
  | nothing => cases hframe
  | response body hframes =>
    obtain ⟨_, hmem, heq⟩ := mem_map.mp ((mem_cons.mp hframe).resolve_left nofun)
    cases heq
    obtain htype | htype := (hframes frame hmem).2
    all_goals cases hupdate.symm.trans htype
  | failure =>
    cases mem_singleton.mp hframe
    cases hupdate

theorem returned_concluded (h : Exchange.Concluded last effects notes)
    (hgoes : effects.any Effect.isFatal = false) : returned notes = 0 ∧ refund effects = 0 := by
  cases h with
  | plain => exact ⟨rfl, rfl⟩
  | handoff request hanswered => exact ⟨returned_answered hanswered, rfl⟩
  | fatal => cases hgoes

theorem returned_wrote (frames : List Frame) :
    returned (frames.map .wrote) = (frames.map (Frame.increment 0)).sum := by
  rw [returned, writtenFrames_wrote]

theorem allAccepted_append (hpack : Hpack) (frames : List Frame) (frame : Frame) :
    AllAccepted hpack (frames ++ [frame]) ↔
      AllAccepted hpack frames ∧
        (Transcript.ofFrames hpack frames).session.rejects frame = false := by
  unfold AllAccepted
  rw [Machine.allSteps_append]
  exact and_congr_right fun _ => and_iff_left trivial

theorem balanced_turn {e e' : Exchange} (h : Balanced hpack e)
    (hlegal : ∀ frame, deed = .receive frame → frame.Legal)
    (hturn : Exchange.Turn hpack e e' deed) : Balanced hpack e' := by
  have hof := hturn.transcript_eq h.transcript
  have hreceived := hturn.receivedFrames_eq
  -- Whatever is written besides replies gives nothing back.
  have hquiet (hfinished : e.finished = true → e'.finished = true)
      (hframes : receivedFrames e'.trace = receivedFrames e.trace)
      (hreturned : returned e'.trace = returned e.trace) : Balanced hpack e' := by
    have hopen (hopen' : e'.finished = false) : e.finished = false := by
      cases he : e.finished with
      | false => rfl
      | true => cases hopen'.symm.trans (hfinished he)
    have hcharged : charged e'.trace = charged e.trace := by rw [charged, hframes, ← charged]
    refine ⟨hof, fun hopen' => ?_, fun hopen' => ?_⟩
    · rw [hreturned, hcharged]
      exact h.le (hopen hopen')
    · rw [hreturned, hcharged, hframes]
      exact h.eq_iff (hopen hopen')
  cases hturn with
  | @receive frame hopen plain last written notes _ heffects hplain _ hlast hall htrace =>
    have hcharged : charged e'.trace = charged e.trace + frame.flowLength := by
      rw [charged, hreceived, map_append, sum_append]
      rfl
    have hreturned (hopen' : e'.finished = false) : returned e'.trace =
        returned e.trace + if e.transcript.session.rejects frame then 0 else frame.flowLength := by
      obtain ⟨rfl, hgoes⟩ := hall hopen'
      obtain ⟨hnotes, hrefund⟩ := returned_concluded hlast hgoes
      have hgoes : (e.transcript.effectsOf hpack frame).any Effect.isFatal = false := by
        rw [heffects, any_append, hgoes, Bool.or_false, any_eq_false]
        intro effect heffect hfatal
        cases effect with
        | fatal => cases hplain _ heffect
        | _ => cases hfatal
      rw [← refund_effectsOf (h.transcript ▸ Transcript.find?_zero hpack _) (hlegal frame rfl) hgoes,
        heffects, refund_append, hrefund, htrace, returned_append, returned_append,
        hnotes]
      exact congrArg _ (returned_wrote _)
    have hle (hopen' : e'.finished = false) : returned e'.trace ≤ charged e'.trace := by
      have hbefore := h.le hopen
      rw [hreturned hopen']
      split <;> omega
    refine ⟨hof, hle, fun hopen' => ?_⟩
    have hbefore := h.le hopen
    rw [hreceived, allAccepted_append, ← h.eq_iff hopen, ← h.transcript, hreturned hopen']
    cases hrejects : e.transcript.session.rejects frame with
    | false =>
      rw [if_neg Bool.false_ne_true]
      exact ⟨fun heq => ⟨by omega, rfl⟩, fun heq => by omega⟩
    | true =>
      have hpos := flowLength_pos_of_rejects hrejects
      rw [if_pos rfl]
      exact ⟨fun heq => by omega, nofun⟩
  | answer streamId _ hfinished hnotes htrace =>
    refine hquiet hfinished (hreceived.trans (append_nil _)) ?_
    rw [htrace, returned_append, returned_answered hnotes, Nat.add_zero]
  | @other notes _ hfinished hnotes htrace =>
    refine hquiet hfinished (hreceived.trans (append_nil _)) ?_
    have hnone : returned notes = 0 := returned_eq_zero fun frame hframe hupdate => by
      obtain heq | ⟨_, heq, hgoaway, _⟩ := hnotes _ hframe
      · cases heq
        cases hupdate
      · cases heq
        cases hupdate.symm.trans hgoaway
    rw [htrace, returned_append, hnone, Nat.add_zero]

/-- On a connection that goes on, what DATA frames took is given back in full if and only if none
of them was refused. -/
theorem receive_credit_iff (env : Env) (e : Exchange) (hrun : e.Dispatched env)
    (hopen : e.finished = false) :
    returned e.trace = charged e.trace ↔ AllAccepted env.hpack (receivedFrames e.trace) := by
  have hbalanced : Balanced env.hpack e :=
    hrun.conducted.turns.invariant (fun _ _ _ he _ hlegal hturn => balanced_turn he hlegal hturn)
      ⟨rfl, fun _ => Nat.le_refl 0, fun _ => ⟨fun _ => trivial, fun _ => rfl⟩⟩
  exact hbalanced.eq_iff hopen

def upload (flags : UInt8) (payload : Http.Bytes) : Exchange :=
  (Http2Connection.run (.answering {}) {} [.client [headersFrame 1 0x4,
    { length := payload.length, type := .data, flags, streamId := 1, payload }]]).exchange

theorem receive_credit_accepted :
    (upload 0x1 [1, 2, 3]).finished = false ∧ charged (upload 0x1 [1, 2, 3]).trace = 3 ∧
      returned (upload 0x1 [1, 2, 3]).trace = 3 :=
  have hreturned := (receive_credit_iff (.answering {}) (upload 0x1 [1, 2, 3]) (.reactor _ _)
    (by decide +kernel)).mpr (by decide +kernel)
  ⟨by decide +kernel, by decide +kernel, hreturned.trans (by decide +kernel)⟩

/-- The pad length takes the rest of the frame. The connection goes on with a smaller window. -/
theorem padding_shrinks_window :
    (upload 0x9 [2, 0, 0]).finished = false ∧ charged (upload 0x9 [2, 0, 0]).trace = 3 ∧
      returned (upload 0x9 [2, 0, 0]).trace = 0 := by
  decide +kernel

end Spaznet.Http2
