import Spaznet.Http2.Conduct
import Spaznet.Http2.Verify.StreamIdentity

/-!
# The last stream of a GOAWAY frame

A GOAWAY frame names the last stream that was dispatched, not the largest. It covers all dispatched
streams as long as requests are completed in the order of their ids.
-/

namespace Spaznet.Http2

open List

variable {s : Session} {stream : Stream} {effects : List Effect}

/-! ## Completing a request -/

def Session.completes (s : Session) (frame : Frame) : Bool :=
  match frame.type with
  | .headers => frame.has Flags.endHeaders && frame.has Flags.endStream
  | .continuation =>
    frame.has Flags.endHeaders &&
      (s.streams.find? frame.streamId).any Stream.endStreamReceived
  | .data => frame.has Flags.endStream && (s.streams.find? frame.streamId).isSome
  | _ => false

theorem Stream.completes_onHeaders (h : stream.onHeaders hpack frame = .finish stream') :
    frame.has Flags.endHeaders = true ∧ frame.has Flags.endStream = true := by
  unfold onHeaders at h
  split at h
  · cases h
  dsimp only at h
  split at h
  next hheaders =>
    split at h
    next hstream => exact ⟨hheaders, hstream⟩
    · cases h
  · cases h

theorem Stream.completes_onContinuation (h : stream.onContinuation hpack frame = .finish stream') :
    frame.has Flags.endHeaders = true ∧ stream.endStreamReceived = true := by
  unfold onContinuation at h
  split at h
  · cases h
  split at h
  · cases h
  dsimp only at h
  split at h
  next hheaders =>
    split at h
    next hstream => exact ⟨hheaders, hstream⟩
    · cases h
  · cases h

theorem Stream.completes_onData (h : stream.onData frame = .finish stream') :
    frame.has Flags.endStream = true := by
  unfold onData at h
  split at h
  · cases h
  split at h
  · cases h
  split at h
  · cases h
  dsimp only at h
  split at h
  next hstream => exact hstream
  · cases h

theorem Stream.Judged.completes (h : stream.Judged hpack frame verdict)
    (hlive : s.streams.find? frame.streamId = some stream) (hfinish : verdict = .finish stream') :
    s.completes frame = true := by
  unfold Session.completes
  cases h with
  | headers htype =>
    obtain ⟨hheaders, hstream⟩ := completes_onHeaders hfinish
    rw [htype, hheaders, hstream]
    rfl
  | continuation htype =>
    obtain ⟨hheaders, hstream⟩ := completes_onContinuation hfinish
    rw [htype, hheaders, hlive]
    exact hstream
  | data htype =>
    rw [htype, hlive]
    exact Bool.and_eq_true_iff.mpr ⟨completes_onData hfinish, rfl⟩
  | windowUpdate =>
    unfold onWindowUpdate at hfinish
    split at hfinish
    all_goals cases hfinish

/-- What a frame hands off, and the last stream after it. -/
structure HandsOff (frame : Frame) (s : Session) (result : Session × List Effect) : Prop where
  last : result.1.lastStreamIdHandled =
    if handoffs result.2 = [] then s.lastStreamIdHandled else frame.streamId
  ids : ∀ request ∈ handoffs result.2, request.streamId = frame.streamId
  completes : handoffs result.2 ≠ [] → s.completes frame = true

theorem handsOff_of_nil (hlast : s'.lastStreamIdHandled = s.lastStreamIdHandled)
    (h : handoffs effects = []) :
    HandsOff frame s (s', effects) := by
  refine ⟨?_, ?_, fun hne => absurd h hne⟩
  · rw [if_pos h]
    exact hlast
  · rw [h]
    exact forall_mem_nil _

theorem handsOff_settle (verdict : Verdict)
    (hids : ∀ stream, verdict.stream? = some stream → stream.id = frame.streamId)
    (hcompletes : ∀ stream, verdict = .finish stream → s.completes frame = true)
    (heffects : handoffs effects = []) :
    HandsOff frame s ((s.settle frame.streamId verdict).1,
      effects ++ (s.settle frame.streamId verdict).2) := by
  cases verdict with
  | fatal errorCode | reset errorCode | keep stream =>
    refine handsOff_of_nil rfl ?_
    rw [handoffs_append, heffects]
    rfl
  | finish stream =>
    have hhandoffs : handoffs (effects ++ (s.settle frame.streamId (.finish stream)).2) =
        [stream.request] := by
      rw [handoffs_append, heffects]
      rfl
    refine ⟨?_, ?_, fun _ => hcompletes stream rfl⟩
    · rw [hhandoffs]
      exact hids stream rfl
    · rw [hhandoffs]
      exact forall_mem_singleton.mpr (hids stream rfl)

theorem handsOff_of_handles (hs : s.Keyed)
    (h : s.Handles hpack frame result) : HandsOff frame s result := by
  have hcredit {effects : List Effect}
      (h : ∀ e ∈ effects, ∃ id increment, e = .windowUpdate id increment) :
      handoffs effects = [] := by
    refine filterMap_eq_nil_iff.mpr fun e he => ?_
    obtain ⟨_, _, rfl⟩ := h e he
    rfl
  cases h with
  | apart _ _ hlast heffects =>
    refine handsOff_of_nil hlast (filterMap_eq_nil_iff.mpr fun e he => ?_)
    obtain rfl | ⟨_, rfl⟩ := heffects e he
    · rfl
    · rfl
  | fatal errorCode | dropped | reset errorCode => exact handsOff_of_nil rfl rfl
  | opens htype _ hnew =>
    have hopened : handoffs [.opened frame.streamId] = [] := rfl
    refine handsOff_settle _ (fun stream h => (Stream.kept_onHeaders h).1) (fun stream h => ?_) hopened
    obtain ⟨hheaders, hstream⟩ := Stream.completes_onHeaders h
    unfold Session.completes
    rw [htype, hheaders, hstream]
    rfl
  | reads hlive hverdict h =>
    exact handsOff_settle _ (fun stream h => (hverdict.kept h).1 (hs _ _ hlive))
      (fun stream => hverdict.completes hlive) (hcredit h)

theorem handsOff_receive (hpack : Hpack) {t : Transcript} (ht : t.session.Keyed) (frame : Frame) :
    HandsOff frame t.session ((t.receive hpack frame).session, t.effectsOf hpack frame) := by
  have hkeyed : (t.session.charge frame).Keyed := by
    intro id stream hfind
    rw [Session.streams_charge] at hfind
    exact ht id stream hfind
  have hcharge : (t.session.charge frame).lastStreamIdHandled = t.session.lastStreamIdHandled ∧
      (t.session.charge frame).completes frame = t.session.completes frame := by
    unfold Session.completes Session.charge
    split
    all_goals exact ⟨rfl, rfl⟩
  have h := handsOff_of_handles hkeyed (Session.handles_handleFrame hpack frame _)
  refine ⟨?_, h.ids, fun hne => hcharge.2 ▸ h.completes hne⟩
  rw [← hcharge.1]
  exact h.last

/-! ## Honest GOAWAY frames -/

/-- A GOAWAY frame covers every stream that was dispatched before it. -/
def Honest (hpack : Hpack) (past : List Note) : Note → Prop
  | .wrote frame =>
    frame.type = .goaway →
      ∀ request ∈ handoffs (Transcript.ofFrames hpack (receivedFrames past)).effects,
        request.streamId ≤ frame.lastStreamId
  | _ => True

instance Honest.decidable (hpack : Hpack) (past : List Note) :
    ∀ note, Decidable (Honest hpack past note)
  | .wrote _ => inferInstanceAs (Decidable (_ → ∀ request ∈ _, _))
  | .received _ => inferInstanceAs (Decidable True)
  | .delivered _ _ => inferInstanceAs (Decidable True)

/-- Requests are completed in the order of their ids. -/
def InOrder (e : Exchange) : Deed → Prop
  | .receive frame =>
    e.transcript.session.completes frame = true →
      e.transcript.session.lastStreamIdHandled ≤ frame.streamId
  | _ => True

instance InOrder.decidable (e : Exchange) : ∀ deed, Decidable (InOrder e deed)
  | .receive _ => inferInstanceAs (Decidable (_ → _))
  | .answer _ => inferInstanceAs (Decidable True)
  | .other => inferInstanceAs (Decidable True)

structure Topped (hpack : Hpack) (e : Exchange) : Prop where
  transcript : e.transcript = .ofFrames hpack (receivedFrames e.trace)
  small : e.transcript.session.lastStreamIdHandled < 2 ^ 31
  top : ∀ request ∈ handoffs e.transcript.effects,
    request.streamId ≤ e.transcript.session.lastStreamIdHandled

namespace Topped

variable {hpack : Hpack} {e e' : Exchange}

theorem receive (h : Topped hpack e) (hlegal : frame.Legal) (horder : InOrder e (.receive frame))
    (htranscript : e'.transcript = e.transcript.receive hpack frame)
    (htrace : e'.transcript = .ofFrames hpack (receivedFrames e'.trace)) : Topped hpack e' := by
  have hkeyed : e.transcript.session.Keyed := by
    rw [h.transcript]
    exact (accounted_ofFrames hpack _).keyed
  obtain ⟨hlast, hids, hcompletes⟩ := handsOff_receive hpack hkeyed frame
  refine ⟨htrace, ?_, fun request hrequest => ?_⟩
  · rw [htranscript, hlast]
    split
    · exact h.small
    · exact hlegal.streamId_lt
  · rw [htranscript, Transcript.effects_receive, handoffs_append] at hrequest
    rw [htranscript, hlast]
    obtain hrequest | hrequest := mem_append.mp hrequest
    · refine (h.top request hrequest).trans ?_
      split
      · exact Nat.le_refl _
      next hne => exact horder (hcompletes hne)
    · rw [if_neg (ne_nil_of_mem hrequest)]
      exact Nat.le_of_eq (hids request hrequest)

theorem of_transcript_eq (h : Topped hpack e) (htranscript : e'.transcript = e.transcript)
    (htrace : e'.transcript = .ofFrames hpack (receivedFrames e'.trace)) : Topped hpack e' :=
  ⟨htrace, htranscript ▸ h.small, htranscript ▸ h.top⟩

theorem honest (h : Topped hpack e) (hpast : receivedFrames past = receivedFrames e.trace)
    (hnote : Goodbye e.transcript.session.lastStreamIdHandled note) : Honest hpack past note := by
  obtain ⟨frame, rfl, _, hlast⟩ := hnote
  intro _ request hrequest
  rw [hpast, ← h.transcript] at hrequest
  rw [hlast, Nat.mod_eq_of_lt h.small]
  exact h.top request hrequest

end Topped

theorem honest_of_type (h : frame.type ≠ .goaway) :
    Honest hpack past (.wrote frame) := fun hgoaway => absurd hgoaway h

theorem honest_of_answered (h : Exchange.Answered streamId notes) :
    ∀ note ∈ notes, Honest hpack past note := by
  intro note hnote
  cases h with
  | nothing => cases hnote
  | response body hframes =>
    obtain rfl | hnote := mem_cons.mp hnote
    · trivial
    obtain ⟨frame, hframe, rfl⟩ := mem_map.mp hnote
    refine honest_of_type fun hgoaway => ?_
    obtain htype | htype := (hframes frame hframe).2
    all_goals cases hgoaway.symm.trans htype
  | failure =>
    rw [mem_singleton.mp hnote]
    exact honest_of_type nofun

theorem honest_of_reply (h : frame ∈ effects.filterMap Effect.reply?) :
    Honest hpack past (.wrote frame) := by
  obtain ⟨effect, _, hreply⟩ := mem_filterMap.mp h
  refine honest_of_type fun hgoaway => ?_
  have htype := type_of_reply hreply
  rw [hgoaway] at htype
  exact absurd htype (by decide)

/-- Every turn that follows the order keeps the last stream the largest, and is honest. -/
theorem honest_turn (h : Topped hpack e ∧ Along (Honest hpack) e.trace) (horder : InOrder e deed)
    (hlegal : ∀ frame, deed = .receive frame → frame.Legal) (hturn : Exchange.Turn hpack e e' deed) :
    Topped hpack e' ∧ Along (Honest hpack) e'.trace := by
  obtain ⟨htop, halong⟩ := h
  have hof := hturn.transcript_eq htop.transcript
  have hreceived := hturn.receivedFrames_eq
  cases hturn with
  | @receive frame hopen plain last written notes htranscript _ _ hwritten hlast _ htrace =>
    have htop' := htop.receive (hlegal frame rfl) horder htranscript hof
    refine ⟨htop', ?_⟩
    rw [htrace]
    refine along_append.mpr ⟨halong, trivial, allSteps_of_no_received ?_ ?_⟩
    · intro note hnote
      obtain hnote | hnote := mem_append.mp hnote
      · exact Exchange.wrote_ne_received written note hnote
      · exact hlast.no_received note hnote
    · intro past hpast note hnote
      obtain hnote | hnote := mem_append.mp hnote
      · obtain ⟨reply, hreply, rfl⟩ := mem_map.mp hnote
        exact honest_of_reply (hwritten.subset hreply)
      cases hlast with
      | plain => cases hnote
      | handoff request hanswered => exact honest_of_answered hanswered note hnote
      | fatal errorCode hgoodbye =>
        refine htop'.honest (hpast.trans ?_) (hgoodbye note hnote)
        rw [hreceived, receivedFrames_append]
        rfl
  | answer streamId htranscript _ hnotes htrace =>
    refine ⟨htop.of_transcript_eq htranscript hof, ?_⟩
    rw [htrace]
    exact along_append.mpr ⟨halong, allSteps_of_no_received hnotes.no_received
      fun _ _ => honest_of_answered hnotes⟩
  | @other notes htranscript _ hnotes htrace =>
    refine ⟨htop.of_transcript_eq htranscript hof, ?_⟩
    rw [htrace]
    refine along_append.mpr ⟨halong, allSteps_of_no_received ?_ ?_⟩
    · rintro note hnote frame rfl
      obtain heq | ⟨_, heq, -⟩ := hnotes _ hnote
      · cases heq
      · cases heq
    · intro past hpast note hnote
      obtain rfl | hgoodbye := hnotes note hnote
      · exact honest_of_type nofun
      · exact htop.honest hpast hgoodbye

/-- If requests are completed in the order of their ids, then every GOAWAY frame covers the streams
that were dispatched before it. -/
theorem goaway_honest (env : Env) (e : Exchange) (h : e.Conducted env InOrder) :
    Along (Honest env.hpack) e.trace :=
  (h.turns.invariant (I := fun e => Topped env.hpack e ∧ Along (Honest env.hpack) e.trace)
    (fun _ _ _ he horder hlegal hturn => honest_turn he horder hlegal hturn)
    ⟨⟨rfl, Nat.two_pow_pos 31, nofun⟩, trivial⟩).2

/-- The client opens two streams, completes the requests in some order and goes away. -/
def twoStreams (first second : Nat) : List Frame :=
  [headersFrame 1 0x4, headersFrame 3 0x4,
    { length := 0, type := .data, flags := 0x1, streamId := first, payload := [] },
    { length := 0, type := .data, flags := 0x1, streamId := second, payload := [] },
    { length := 8, type := .goaway, flags := 0, streamId := 0, payload := List.replicate 8 0 }]

theorem goaway_honest_inOrder :
    let e := (Http2Connection.run (.answering {}) {} [.client (twoStreams 1 3)]).exchange
    (writtenFrames e.trace).any (fun frame => frame.type = .goaway ∧ frame.lastStreamId = 3) = true ∧
      Along (Honest (Env.answering {}).hpack) e.trace :=
  ⟨by decide +kernel, goaway_honest (.answering {}) _ (.reactor {} _ (by decide +kernel))⟩

/-- Stream 3 is dispatched, then stream 1, and the GOAWAY frame names 1. -/
theorem goaway_names_last :
    let e := (Http2Connection.run (.answering {}) {} [.client (twoStreams 3 1)]).exchange
    e.requests.map Request.streamId = [3, 1] ∧
      (writtenFrames e.trace).any (fun frame => frame.type = .goaway ∧ frame.lastStreamId = 1) =
        true ∧
      ¬ Along (Honest (Env.answering {}).hpack) e.trace := by
  decide +kernel

end Spaznet.Http2
