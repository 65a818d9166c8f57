import Mathlib.Data.List.Pairwise
import Spaznet.Http2.Actions

/-!
# Stream identifiers

A client opens streams with odd ids that grow. The dispatchers hold it to neither: a HEADERS frame
opens any stream but 0 that is not in the table, and the table forgets a stream when its request is
dispatched. What they do see to is that a stream is dispatched no more often than it was opened.
-/

namespace Spaznet.Http2

open List Session Transcript

def openings (effects : List Effect) : List Nat :=
  effects.filterMap fun | .opened streamId => some streamId | _ => none

def dispatchedIds (effects : List Effect) : List Nat := (handoffs effects).map Request.streamId

theorem openings_append (effects effects' : List Effect) :
    openings (effects ++ effects') = openings effects ++ openings effects' :=
  filterMap_append

theorem dispatchedIds_append (effects effects' : List Effect) :
    dispatchedIds (effects ++ effects') = dispatchedIds effects ++ dispatchedIds effects' := by
  unfold dispatchedIds
  rw [handoffs_append, map_append]

def Effect.Aside (effect : Effect) : Prop :=
  (∀ streamId, effect ≠ .opened streamId) ∧ ∀ request, effect ≠ .handoff request

theorem nil_of_aside {effects : List Effect} (h : ∀ e ∈ effects, e.Aside) :
    openings effects = [] ∧ dispatchedIds effects = [] := by
  constructor
  · refine filterMap_eq_nil_iff.mpr fun e he => ?_
    cases e with
    | opened streamId => exact absurd rfl ((h _ he).1 streamId)
    | _ => rfl
  · refine map_eq_nil_iff.mpr (filterMap_eq_nil_iff.mpr fun e he => ?_)
    cases e with
    | handoff request => exact absurd rfl ((h _ he).2 request)
    | _ => rfl

theorem aside_of_apart {effects : List Effect}
    (h : ∀ e ∈ effects, e = .settingsAck ∨ ∃ payload, e = .pong payload) :
    ∀ e ∈ effects, e.Aside := by
  intro e he
  obtain rfl | ⟨payload, rfl⟩ := h e he
  all_goals exact ⟨nofun, nofun⟩

theorem aside_of_credit {effects : List Effect}
    (h : ∀ e ∈ effects, ∃ streamId increment, e = .windowUpdate streamId increment) :
    ∀ e ∈ effects, e.Aside := by
  intro e he
  obtain ⟨_, _, rfl⟩ := h e he
  exact ⟨nofun, nofun⟩

/-! ## Openings and dispatches -/

def Session.live (s : Session) (streamId : Nat) : Nat :=
  if (s.streams.find? streamId).isSome then 1 else 0

/-- A frame dispatches a stream that was in the table or that it has opened. -/
structure Accounts (s : Session) (result : Session × List Effect) : Prop where
  keyed : result.1.Keyed
  count : ∀ streamId, (dispatchedIds result.2).count streamId + result.1.live streamId ≤
    s.live streamId + (openings result.2).count streamId

namespace Session

variable {s s' : Session} {hpack : Hpack} {frame : Frame}

theorem live_eq_of_find? (h : s'.streams.find? streamId = s.streams.find? streamId) :
    s'.live streamId = s.live streamId := by
  unfold live
  rw [h]

theorem accounts_of_dropped {effects : List Effect} (hs : s.Keyed)
    (h : ∀ id, s'.streams.find? id = none ∨ s'.streams.find? id = s.streams.find? id)
    (heffects : ∀ e ∈ effects, e.Aside) : Accounts s (s', effects) := by
  refine ⟨fun id stream hfind => ?_, fun id => ?_⟩
  · obtain hnone | hsame := h id
    · cases hnone.symm.trans hfind
    · exact hs id stream (hsame.symm.trans hfind)
  · rw [(nil_of_aside heffects).2, count_nil, Nat.zero_add]
    refine Nat.le_trans ?_ (Nat.le_add_right _ _)
    obtain hnone | hsame := h id
    · unfold live
      rw [hnone]
      exact Nat.zero_le _
    · exact Nat.le_of_eq (live_eq_of_find? hsame)

theorem erase_find? (streams : OrdMap Stream) (streamId id : Nat) :
    (streams.erase streamId).find? id = none ∨
      (streams.erase streamId).find? id = streams.find? id := by
  rw [OrdMap.find?_erase]
  split
  · exact .inl rfl
  · exact .inr rfl

section
variable (s : Session) (streamId : Nat) (verdict : Verdict)

/-- A stream is dispatched or stays, but not both. -/
theorem count_settle
    (h : ∀ stream, verdict.stream? = some stream → stream.id = streamId) (id : Nat) :
    (dispatchedIds (s.settle streamId verdict).2).count id +
        (s.settle streamId verdict).1.live id ≤ if id = streamId then 1 else s.live id := by
  have hlive (s : Session) (id : Nat) : s.live id ≤ 1 := by
    unfold live
    split
    · exact Nat.le_refl 1
    · exact Nat.zero_le 1
  by_cases hid : id = streamId
  · subst hid
    rw [if_pos rfl]
    cases verdict with
    | fatal | reset | keep => exact (Nat.zero_add _).trans_le (hlive _ _)
    | finish stream =>
      have hgone : (s.settle id (.finish stream)).1.live id = 0 := by
        unfold live
        rw [find?_settle_finish]
        rfl
      rw [hgone]
      exact count_le_length
  · rw [if_neg hid, live_eq_of_find? (find?_settle_of_ne s verdict hid)]
    have hnone : (dispatchedIds (s.settle streamId verdict).2).count id = 0 := by
      cases verdict with
      | fatal | reset | keep => rfl
      | finish stream =>
        change [stream.id].count id = 0
        rw [h stream rfl]
        exact count_eq_zero.mpr (by rwa [mem_singleton])
    rw [hnone, Nat.zero_add]

theorem openings_settle : openings (s.settle streamId verdict).2 = [] := by
  cases verdict with
  | fatal | reset | keep | finish => rfl

end

theorem accounts_of_handles {result : Session × List Effect} (hs : s.Keyed)
    (h : Handles hpack frame s result) : Accounts s result := by
  cases h with
  | apart _ hstreams _ heffects =>
    exact accounts_of_dropped hs (fun id => .inr (by rw [hstreams])) (aside_of_apart heffects)
  | fatal errorCode =>
    exact accounts_of_dropped hs (fun id => .inr rfl) (forall_mem_singleton.mpr ⟨nofun, nofun⟩)
  | dropped => exact accounts_of_dropped hs (erase_find? _ _) (forall_mem_nil _)
  | reset errorCode _ =>
    exact accounts_of_dropped hs (erase_find? _ _) (forall_mem_singleton.mpr ⟨nofun, nofun⟩)
  | opens htype _ hnew =>
    have hids (stream : Stream)
        (h : (({} : Stream).onHeaders hpack frame).stream? = some stream) :
        stream.id = frame.streamId := (Stream.kept_onHeaders h).1
    refine ⟨keyed_settle hs hids, fun id => ?_⟩
    have hcount := count_settle s frame.streamId (({} : Stream).onHeaders hpack frame) hids id
    have hopen : (openings (.opened frame.streamId ::
        (s.settle frame.streamId (({} : Stream).onHeaders hpack frame)).2)).count id =
          if id = frame.streamId then 1 else 0 := by
      change (frame.streamId :: openings _).count id = _
      rw [openings_settle, count_singleton]
      by_cases hid : id = frame.streamId
      · rw [if_pos hid, hid, if_pos (beq_self_eq_true _)]
      · rw [if_neg hid, if_neg (by rw [beq_iff_eq]; exact fun h => hid h.symm)]
    rw [hopen]
    refine le_trans hcount ?_
    split
    · exact Nat.le_add_left _ _
    · exact Nat.le_refl _
  | @reads stream verdict credit hlive hverdict hcredit =>
    have hids (stream' : Stream) (h : verdict.stream? = some stream') :
        stream'.id = frame.streamId := (hverdict.kept h).1 (hs _ _ hlive)
    refine ⟨keyed_settle hs hids, fun id => ?_⟩
    rw [dispatchedIds_append, (nil_of_aside (aside_of_credit hcredit)).2]
    refine le_trans (count_settle s frame.streamId verdict hids id) ?_
    split
    next hid =>
      subst hid
      rw [live, hlive]
      exact Nat.le_add_right _ _
    · exact Nat.le_add_right _ _

end Session

/-- No stream was dispatched more often than it was opened. -/
structure Transcript.Accounted (t : Transcript) : Prop where
  keyed : t.session.Keyed
  count : ∀ streamId, (dispatchedIds t.effects).count streamId + t.session.live streamId ≤
    (openings t.effects).count streamId

theorem accounted_receive (t : Transcript) (frame : Frame) (h : t.Accounted) :
    (t.receive hpack frame).Accounted := by
  have hkeyed : (t.session.charge frame).Keyed := by
    intro id stream hfind
    rw [streams_charge] at hfind
    exact h.keyed id stream hfind
  obtain ⟨hkeyed', hcount⟩ :=
    accounts_of_handles hkeyed (handles_handleFrame hpack frame _)
  refine ⟨hkeyed', fun id => ?_⟩
  have hold := h.count id
  have hnew := hcount id
  have hlive : (t.session.charge frame).live id = t.session.live id :=
    live_eq_of_find? (by rw [streams_charge])
  rw [effects_receive, dispatchedIds_append, openings_append, count_append,
    count_append]
  change (dispatchedIds (t.effectsOf hpack frame)).count id + (t.receive hpack frame).session.live id
    ≤ _ + (openings (t.effectsOf hpack frame)).count id at hnew
  omega

theorem accounted_ofFrames (hpack : Hpack) (frames : List Frame) :
    (ofFrames hpack frames).Accounted :=
  Machine.run_induction (fun t frame h => accounted_receive t frame h) (s := {})
    ⟨nofun, fun _ => Nat.le_refl 0⟩ frames

/-! ## Ids that grow -/

/-- A stream is opened under an odd id that is larger than those before. -/
def Fresh (t : Transcript) (frame : Frame) : Prop :=
  frame.type = .headers → t.session.streams.find? frame.streamId = none →
    frame.streamId % 2 = 1 ∧ ∀ id ∈ openings t.effects, id < frame.streamId
  deriving Decidable

theorem openings_of_handles {s : Session} (h : s.Handles hpack frame result) :
    openings result.2 = [] ∨
      frame.type = .headers ∧ s.streams.find? frame.streamId = none ∧
        openings result.2 = [frame.streamId] := by
  cases h with
  | apart _ _ _ heffects =>
    exact .inl (nil_of_aside (aside_of_apart heffects)).1
  | fatal | dropped | reset => exact .inl rfl
  | opens htype _ hnew =>
    refine .inr ⟨htype, hnew, ?_⟩
    change frame.streamId :: openings _ = _
    rw [openings_settle]
  | @reads _ verdict credit _ _ hcredit =>
    refine .inl ?_
    rw [openings_append, (nil_of_aside (aside_of_credit hcredit)).1, openings_settle,
      nil_append]

/-- The ids of the streams grow, and all of them are odd. -/
def Growing (t : Transcript) : Prop :=
  (openings t.effects).Pairwise (· < ·) ∧ ∀ id ∈ openings t.effects, id % 2 = 1

theorem growing_receive (t : Transcript) (frame : Frame) (h : Growing t) (hfresh : Fresh t frame) :
    Growing (t.receive hpack frame) := by
  unfold Growing
  rw [effects_receive, openings_append]
  have hopens := openings_of_handles
    (handles_handleFrame hpack frame (t.session.charge frame))
  rw [streams_charge] at hopens
  obtain hnone | ⟨htype, hnew, hone⟩ := hopens
  · rw [effectsOf, hnone, append_nil]
    exact h
  obtain ⟨hodd, hlarger⟩ := hfresh htype hnew
  rw [effectsOf, hone]
  refine ⟨pairwise_append.mpr ⟨h.1, pairwise_singleton _ _, fun id hid => ?_⟩,
    forall_mem_append.mpr ⟨h.2, forall_mem_singleton.mpr hodd⟩⟩
  exact forall_mem_singleton.mpr (hlarger id hid)

/-! ## What is refused -/

/-- A HEADERS frame on stream 0 is a connection error; one that would open a stream too many is
reset. Neither changes the table. -/
structure Refuses (hpack : Hpack) (t : Transcript) (frame : Frame) : Prop where
  zero : frame.type = .headers → frame.streamId = 0 →
    t.effectsOf hpack frame = [.fatal 0x1] ∧
      (t.receive hpack frame).session.streams = t.session.streams
  full : frame.type = .headers → frame.streamId ≠ 0 →
    t.session.streams.find? frame.streamId = none →
    t.session.streams.entries.length ≥ kMaxConcurrentStreams →
    t.effectsOf hpack frame = [.rstStream frame.streamId 0x7] ∧
      (t.receive hpack frame).session.streams = t.session.streams

theorem refuses (hpack : Hpack) (t : Transcript) (frame : Frame) : Refuses hpack t frame := by
  have hstreams := streams_charge frame t.session
  refine ⟨fun htype hid => ?_, fun htype hid hnew hfull => ?_⟩
  · have hframe : (t.session.charge frame).handleFrame hpack frame =
        (t.session.charge frame, [.fatal 0x1]) := by
      unfold handleFrame
      rw [htype]
      exact if_pos hid
    unfold receive effectsOf
    rw [hframe]
    exact ⟨rfl, hstreams⟩
  · have hframe : (t.session.charge frame).handleFrame hpack frame =
        (t.session.charge frame).rstStream frame.streamId 0x7 := by
      unfold handleFrame
      rw [htype]
      unfold onHeaders
      rw [if_neg hid, hstreams, hnew]
      exact if_pos hfull
    unfold receive effectsOf
    rw [hframe]
    refine ⟨rfl, ?_⟩
    unfold rstStream
    rw [hstreams, OrdMap.erase_of_find?_none hnew]

/-- What the dispatchers see to, and what follows if the client opens its streams under ids as it
should. -/
theorem stream_identity (env : Env) (e : Exchange) (hrun : e.Dispatched env) :
    Machine.AllSteps (receive env.hpack) (Refuses env.hpack) {} e.transcript.frames ∧
      (∀ id, (e.requests.map Request.streamId).count id ≤
        (openings e.transcript.effects).count id) ∧
      (Machine.AllSteps (receive env.hpack) Fresh {} e.transcript.frames →
        (e.requests.map Request.streamId).Nodup ∧
          (∀ id ∈ e.requests.map Request.streamId, id ∈ openings e.transcript.effects) ∧
          (openings e.transcript.effects).Pairwise (· < ·) ∧
          ∀ id ∈ openings e.transcript.effects, id % 2 = 1) := by
  have hfollows := Exchange.Follows.moves hrun.moves
  have hcount (id : Nat) : (e.requests.map Request.streamId).count id ≤
      (openings e.transcript.effects).count id := by
    have haccounted := (accounted_ofFrames env.hpack e.transcript.frames).count id
    rw [← hfollows.transcript] at haccounted
    rw [hfollows.dispatched]
    exact (Nat.le_add_right _ _).trans haccounted
  refine ⟨Machine.allSteps_of_forall (refuses env.hpack) _ _, hcount, fun hfresh => ?_⟩
  have hgrowing : Growing e.transcript := by
    rw [hfollows.transcript]
    exact Machine.run_invariant (fun t frame => growing_receive t frame) ⟨.nil, nofun⟩ hfresh
  refine ⟨nodup_iff_count_le_one.mpr fun id => ?_, fun id hid => ?_, hgrowing.1, hgrowing.2⟩
  · have hnodup : (openings e.transcript.effects).Nodup := hgrowing.1.imp Nat.ne_of_lt
    exact (hcount id).trans (nodup_iff_count_le_one.mp hnodup id)
  · exact count_pos_iff.mp ((count_pos_iff.mpr hid).trans_le (hcount id))

def requestsOn (ids : List Nat) : Exchange :=
  (Http2Connection.run (.answering {}) {} [.client (ids.map (headersFrame · 0x5))]).exchange

theorem stream_identity_twoRequests :
    (requestsOn [1, 3]).requests.map Request.streamId = [1, 3] ∧
      ((requestsOn [1, 3]).requests.map Request.streamId).Nodup :=
  ⟨by decide +kernel, ((stream_identity (.answering {}) (requestsOn [1, 3]) (.reactor _ _)).2.2
    (by decide +kernel)).1⟩

/-- An even id, dispatched twice. -/
theorem even_stream_twice :
    (requestsOn [2, 2]).requests.map Request.streamId = [2, 2] ∧
      openings (requestsOn [2, 2]).transcript.effects = [2, 2] := by
  decide +kernel

end Spaznet.Http2
