import Spaznet.Http2.Verify.Goaway

/-!
# Streams that were reset

A response is written on its stream whatever has become of it: the response path knows the id of the
stream and nothing else. Nothing is written on a stream after a reset if handlers do not complete
responses for it, and if the client does not complete another request on it.
-/

namespace Spaznet.Http2

open List

def Frame.reset? (frame : Frame) : Option Nat :=
  if frame.type = .rstStream then some frame.streamId else none

def resets (trace : List Note) : List Nat :=
  trace.filterMap fun
    | .received frame | .wrote frame => frame.reset?
    | .delivered _ _ => none

/-- No part of a response is written on a stream after its reset. -/
def Silent (past : List Note) : Note → Prop
  | .wrote frame =>
    frame.type = .headers ∨ frame.type = .data → frame.streamId ∉ resets past
  | _ => True

instance Silent.decidable (past : List Note) : ∀ note, Decidable (Silent past note)
  | .wrote _ => inferInstanceAs (Decidable (_ ∨ _ → _))
  | .received _ => inferInstanceAs (Decidable True)
  | .delivered _ _ => inferInstanceAs (Decidable True)

/-- Neither a request nor a response is completed on a stream after its reset. -/
def Abandoned (e : Exchange) : Deed → Prop
  | .receive frame =>
    e.transcript.session.completes frame = true → frame.streamId ∉ resets e.trace
  | .answer streamId => streamId ∉ resets e.trace
  | .other => True

instance Abandoned.decidable (e : Exchange) : ∀ deed, Decidable (Abandoned e deed)
  | .receive _ => inferInstanceAs (Decidable (_ → _))
  | .answer _ => inferInstanceAs (Decidable (_ ∉ _))
  | .other => inferInstanceAs (Decidable True)

theorem resets_append (trace trace' : List Note) :
    resets (trace ++ trace') = resets trace ++ resets trace' :=
  filterMap_append

theorem silent_of_type (h : frame.type ∉ [.headers, .data]) : Silent past (.wrote frame) := by
  rintro (htype | htype)
  · rw [htype] at h
    exact absurd (mem_cons_self) h
  · rw [htype] at h
    exact absurd (mem_cons_of_mem _ mem_cons_self) h

theorem silent_of_forall (h : ∀ frame, .wrote frame ∈ notes → frame.type ∉ [.headers, .data])
    (past : List Note) :
    Machine.AllSteps (fun past note => past ++ [note]) Silent past notes := by
  induction notes generalizing past with
  | nil => trivial
  | cons note notes ih =>
    refine ⟨?_, ih (fun frame hframe => h frame (mem_cons_of_mem _ hframe)) _⟩
    cases note with
    | wrote frame => exact silent_of_type (h frame mem_cons_self)
    | received | delivered => trivial

theorem silent_response {frames : List Frame}
    (hframes : ∀ frame ∈ frames,
      frame.streamId = streamId ∧ (frame.type = .headers ∨ frame.type = .data))
    (h : streamId ∉ resets past) :
    Machine.AllSteps (fun past note => past ++ [note]) Silent past (frames.map .wrote) := by
  induction frames generalizing past with
  | nil => trivial
  | cons frame frames ih =>
    obtain ⟨hid, htype⟩ := hframes frame mem_cons_self
    refine ⟨fun _ => hid ▸ h, ih (fun f hf => hframes f (mem_cons_of_mem _ hf)) ?_⟩
    have hnone : resets [.wrote frame] = [] := by
      have hreset : frame.reset? = none := by
        refine if_neg fun hrst => ?_
        obtain htype | htype := htype
        all_goals cases hrst.symm.trans htype
      exact filterMap_cons_none hreset
    rwa [resets_append, hnone, append_nil]

theorem silent_answered (hnotes : Exchange.Answered streamId notes)
    (h : streamId ∉ resets past) :
    Machine.AllSteps (fun past note => past ++ [note]) Silent past notes := by
  cases hnotes with
  | nothing => trivial
  | response body hframes =>
    refine ⟨trivial, silent_response hframes ?_⟩
    rw [resets_append]
    exact fun hmem => h ((mem_append.mp hmem).resolve_right nofun)
  | failure =>
    have htype : FrameType.rstStream ∉ [.headers, .data] := by decide
    exact ⟨silent_of_type htype, trivial⟩

theorem rstStream_not_mem_of_handles {s : Session}
    (h : s.Handles hpack frame result) (hhandoff : handoffs result.2 ≠ []) (id errorCode : Nat) :
    .rstStream id errorCode ∉ result.2 := by
  have hsettle (verdict : Verdict) (effects : List Effect)
      (hplain : ∀ e ∈ effects, handoffs [e] = [] ∧ e ≠ .rstStream id errorCode)
      (hne : handoffs (effects ++ (s.settle frame.streamId verdict).2) ≠ []) :
      .rstStream id errorCode ∉ effects ++ (s.settle frame.streamId verdict).2 := by
    intro hmem
    obtain hmem | hmem := mem_append.mp hmem
    · exact (hplain _ hmem).2 rfl
    cases verdict with
    | reset code =>
      have hnone : handoffs effects = [] := filterMap_eq_nil_iff.mpr fun e he => by
        have := (hplain e he).1
        cases e with
        | handoff => cases this
        | _ => rfl
      refine hne ?_
      rw [handoffs_append, hnone]
      rfl
    | fatal => cases mem_singleton.mp hmem
    | keep => cases hmem
    | finish => cases mem_singleton.mp hmem
  cases h with
  | apart _ _ _ heffects =>
    intro hmem
    obtain heq | ⟨_, heq⟩ := heffects _ hmem
    · cases heq
    · cases heq
  | fatal | dropped | reset => exact absurd rfl hhandoff
  | opens =>
    exact hsettle _ [.opened frame.streamId] (forall_mem_singleton.mpr ⟨rfl, nofun⟩) hhandoff
  | @reads _ verdict credit _ _ hcredit =>
    refine hsettle _ credit (fun e he => ?_) hhandoff
    obtain ⟨_, _, rfl⟩ := hcredit e he
    exact ⟨rfl, nofun⟩

/-- Up to the answer to its request, a frame resets nothing. -/
theorem resets_of_handoff {t : Transcript} (hcompletes : t.session.completes frame = true)
    (heffects : t.effectsOf hpack frame = plain ++ [.handoff request])
    (hwritten : written <+: plain.filterMap Effect.reply?) :
    resets (.received frame :: written.map .wrote) = [] := by
  have hnotRst : frame.reset? = none := by
    refine if_neg fun hrst => ?_
    rw [Session.completes, hrst] at hcompletes
    cases hcompletes
  have hhandoff : handoffs (t.effectsOf hpack frame) ≠ [] := by
    rw [heffects, handoffs_append]
    exact append_ne_nil_of_right_ne_nil _ (cons_ne_nil _ _)
  refine filterMap_eq_nil_iff.mpr fun note hnote => ?_
  obtain rfl | hnote := mem_cons.mp hnote
  · exact hnotRst
  obtain ⟨reply, hreply, rfl⟩ := mem_map.mp hnote
  obtain ⟨effect, heffect, hof⟩ := mem_filterMap.mp (hwritten.subset hreply)
  refine if_neg fun hrst => ?_
  cases effect with
  | rstStream id errorCode =>
    refine rstStream_not_mem_of_handles (Session.handles_handleFrame hpack frame _) hhandoff id
      errorCode ?_
    change _ ∈ t.effectsOf hpack frame
    rw [heffects]
    exact mem_append_left _ heffect
  | settingsAck | pong | windowUpdate =>
    cases hof
    cases hrst
  | opened | handoff | fatal => cases hof

/-- A turn writes no part of a response on a stream that was reset. -/
theorem silent_turn {e e' : Exchange}
    (hof : e.transcript = .ofFrames hpack (receivedFrames e.trace)) (h : Along Silent e.trace)
    (habandoned : Abandoned e deed) (hturn : Exchange.Turn hpack e e' deed) :
    Along Silent e'.trace := by
  have hgoodbye {last : Nat} {notes : List Note} (hnotes : ∀ note ∈ notes, Goodbye last note) :
      ∀ frame, .wrote frame ∈ notes → frame.type ∉ [.headers, .data] := by
    intro frame hframe
    obtain ⟨_, heq, htype, _⟩ := hnotes _ hframe
    cases heq
    rw [htype]
    decide
  cases hturn with
  | @receive frame _ plain last written notes _ heffects _ hwritten hlast _ htrace =>
    rw [htrace]
    refine along_append.mpr ⟨h, Machine.allSteps_append.mpr ⟨⟨trivial, silent_of_forall ?_ _⟩, ?_⟩⟩
    · intro reply hreply
      obtain ⟨_, hmem, heq⟩ := mem_map.mp hreply
      cases heq
      obtain ⟨effect, _, hof⟩ := mem_filterMap.mp (hwritten.subset hmem)
      intro htype
      have hreplied := type_of_reply hof
      simp only [mem_cons, not_mem_nil, or_false] at htype
      obtain htype | htype := htype
      all_goals
        rw [htype] at hreplied
        exact absurd hreplied (by decide)
    · rw [run_snoc]
      cases hlast with
      | plain => trivial
      | fatal errorCode hnotes => exact silent_of_forall (hgoodbye hnotes) _
      | handoff request hanswered =>
        have hkeyed : e.transcript.session.Keyed := hof ▸ (accounted_ofFrames hpack _).keyed
        have hmem : request ∈ handoffs (e.transcript.effectsOf hpack frame) := by
          rw [heffects, handoffs_append]
          exact mem_append_right _ mem_cons_self
        obtain ⟨_, hids, hcompletes⟩ := handsOff_receive hpack hkeyed frame
        have hcomplete := hcompletes (ne_nil_of_mem hmem)
        refine silent_answered hanswered ?_
        rw [resets_append, resets_of_handoff hcomplete heffects hwritten, append_nil,
          hids request hmem]
        exact habandoned hcomplete
  | answer streamId _ _ hnotes htrace =>
    rw [htrace]
    exact along_append.mpr ⟨h, silent_answered hnotes habandoned⟩
  | other _ _ hnotes htrace =>
    rw [htrace]
    refine along_append.mpr ⟨h, silent_of_forall (fun frame hframe => ?_) _⟩
    obtain heq | ⟨_, heq, htype, _⟩ := hnotes _ hframe
    · cases heq
      have htype : FrameType.settings ∉ [.headers, .data] := by decide
      exact htype
    · cases heq
      rw [htype]
      decide

/-- If neither requests nor responses are completed on streams after their reset, then no part of a
response is written on them. -/
theorem silent_after_reset (env : Env) (e : Exchange) (h : e.Conducted env Abandoned) :
    Along Silent e.trace :=
  (h.turns.invariant
    (I := fun e => e.transcript = .ofFrames env.hpack (receivedFrames e.trace) ∧
      Along Silent e.trace)
    (fun _ _ _ he habandoned _ hturn =>
      ⟨hturn.transcript_eq he.1, silent_turn he.1 he.2 habandoned hturn⟩)
    ⟨rfl, trivial⟩).2

/-- A request whose handler answers later; before or after that the client resets the stream. -/
def deferredRequest (resetFirst : Bool) : List Http2Connection.Event :=
  let rst : Http2Connection.Event := .data (buildRstStreamFrame 1 0x8).serialize
  .client [headersFrame 1 0x5] ::
    if resetFirst then [rst, .complete 0 {}] else [.complete 0 {}, rst]

theorem silent_after_reset_answered :
    let e := (Http2Connection.run .deferring {} (deferredRequest false)).exchange
    resets e.trace = [1] ∧ (writtenFrames e.trace).any (·.type = .headers) = true ∧
      Along Silent e.trace :=
  ⟨by decide +kernel, by decide +kernel,
    silent_after_reset .deferring _ (.reactor {} (deferredRequest false) (by decide +kernel))⟩

/-- The client resets the stream, and the response is written on it all the same. -/
theorem response_after_reset :
    let e := (Http2Connection.run .deferring {} (deferredRequest true)).exchange
    resets e.trace = [1] ∧ ¬ Along Silent e.trace := by
  decide +kernel

end Spaznet.Http2
