import Mathlib.Logic.Relation
import Spaznet.Http2.Session

/-!
# Exchanges

What the two dispatchers have in common, without buffers, sockets and coroutines: frames are handled
until the exchange is over, requests are dispatched, frames are written and responses delivered. A
dispatcher refines the moves of an exchange.
-/

namespace Spaznet.Http2

open List
open Http (Bytes)

/-- What is seen on the connection, in its order: a frame is handled, a response is about to be
written, a frame is written. -/
inductive Note where
  | received (frame : Frame)
  | delivered (streamId : Nat) (body : Bytes)
  | wrote (frame : Frame)
  deriving DecidableEq

def writtenFrames (trace : List Note) : List Frame :=
  trace.filterMap fun | .wrote frame => some frame | _ => none

theorem writtenFrames_append (trace trace' : List Note) :
    writtenFrames (trace ++ trace') = writtenFrames trace ++ writtenFrames trace' :=
  filterMap_append

theorem writtenFrames_wrote (frames : List Frame) : writtenFrames (frames.map .wrote) = frames := by
  unfold writtenFrames
  rw [filterMap_map]
  exact filterMap_some

def receivedFrames (trace : List Note) : List Frame :=
  trace.filterMap fun | .received frame => some frame | _ => none

theorem receivedFrames_append (trace trace' : List Note) :
    receivedFrames (trace ++ trace') = receivedFrames trace ++ receivedFrames trace' :=
  filterMap_append

theorem receivedFrames_eq_nil (h : ∀ note ∈ notes, ∀ frame, note ≠ .received frame) :
    receivedFrames notes = [] := by
  refine filterMap_eq_nil_iff.mpr fun note hnote => ?_
  cases note with
  | received frame => exact absurd rfl (h _ hnote frame)
  | delivered => rfl
  | wrote => rfl

/-- Every note of a trace meets a condition, which may look at the notes before. -/
def Along (Q : List Note → Note → Prop) (trace : List Note) : Prop :=
  Machine.AllSteps (fun past note => past ++ [note]) Q [] trace

instance Along.decidable (Q : List Note → Note → Prop) [∀ past note, Decidable (Q past note)]
    (trace : List Note) : Decidable (Along Q trace) :=
  inferInstanceAs (Decidable (Machine.AllSteps _ Q [] trace))

theorem run_snoc (past notes : List Note) :
    Machine.run (fun past note => past ++ [note]) past notes = past ++ notes := by
  induction notes generalizing past with
  | nil => exact (append_nil _).symm
  | cons note notes ih => rw [Machine.run_cons, ih, append_assoc, singleton_append]

theorem along_append : Along Q (trace ++ notes) ↔
      Along Q trace ∧ Machine.AllSteps (fun past note => past ++ [note]) Q trace notes := by
  rw [Along, Machine.allSteps_append, run_snoc]
  rfl

theorem allSteps_of_no_received (hnotes : ∀ note ∈ notes, ∀ frame, note ≠ .received frame)
    (h : ∀ past', receivedFrames past' = receivedFrames past → ∀ note ∈ notes, Q past' note) :
    Machine.AllSteps (fun past note => past ++ [note]) Q past notes := by
  induction notes generalizing past with
  | nil => trivial
  | cons note notes ih =>
    have hnone : receivedFrames [note] = [] := receivedFrames_eq_nil fun n hn =>
      hnotes n (by rw [mem_singleton.mp hn]; exact mem_cons_self)
    refine ⟨h past rfl note mem_cons_self,
      ih (fun n hn => hnotes n (mem_cons_of_mem _ hn)) fun past' hpast n hn => ?_⟩
    refine h past' (hpast.trans ?_) n (mem_cons_of_mem _ hn)
    rw [receivedFrames_append, hnone, append_nil]

structure Exchange where
  transcript : Transcript := {}
  requests : List Request := []
  /-- No frame is handled any more. -/
  finished : Bool := false
  trace : List Note := []

namespace Exchange

/-- A fatal frame is the last one. -/
def receive (hpack : Hpack) (e : Exchange) (frame : Frame) : Exchange :=
  { transcript := e.transcript.receive hpack frame
    requests := e.requests ++ handoffs (e.transcript.effectsOf hpack frame)
    finished := (e.transcript.effectsOf hpack frame).any Effect.isFatal
    trace := e.trace ++ [.received frame] }

/-- What a dispatcher writes: control frames, and the frames of responses that are delivered. -/
inductive Emitted : List Note → Prop where
  | nil : Emitted []
  | write {frame : Frame} {notes : List Note} (hdata : frame.type ≠ .data) (h : Emitted notes) :
    Emitted (.wrote frame :: notes)
  | deliver {streamId : Nat} {body : Bytes} {frames : List Frame} {notes : List Note}
    (hstream : ∀ frame ∈ frames, frame.streamId = streamId)
    (hflow : (frames.map Frame.flowLength).sum ≤ body.length) (h : Emitted notes) :
    Emitted (.delivered streamId body :: frames.map .wrote ++ notes)

theorem Emitted.append (h : Emitted notes) (h' : Emitted notes') : Emitted (notes ++ notes') := by
  induction h with
  | nil => exact h'
  | write hdata _ ih => exact .write hdata ih
  | deliver hstream hflow _ ih =>
    rw [append_assoc]
    exact .deliver hstream hflow ih

/-- Something is written, and the exchange may be over with it. -/
structure Emits (e e' : Exchange) : Prop where
  transcript : e'.transcript = e.transcript
  requests : e'.requests = e.requests
  finished : e.finished = true → e'.finished = true
  trace : ∃ notes, Emitted notes ∧ e'.trace = e.trace ++ notes

theorem Emits.refl (e : Exchange) : Emits e e :=
  ⟨rfl, rfl, id, [], .nil, (append_nil _).symm⟩

theorem Emits.trans (h : Emits e e') (h' : Emits e' e'') : Emits e e'' := by
  obtain ⟨notes, hemitted, htrace⟩ := h.trace
  obtain ⟨notes', hemitted', htrace'⟩ := h'.trace
  refine ⟨h'.transcript.trans h.transcript, h'.requests.trans h.requests,
    h'.finished ∘ h.finished, notes ++ notes', hemitted.append hemitted', ?_⟩
  rw [htrace', htrace, append_assoc]

inductive Move (hpack : Hpack) (e : Exchange) : Exchange → Prop where
  | receive (frame : Frame) (hopen : e.finished = false) : Move hpack e (e.receive hpack frame)
  | emit {e' : Exchange} (h : Emits e e') : Move hpack e e'

abbrev Moves (hpack : Hpack) : Exchange → Exchange → Prop := Relation.ReflTransGen (Move hpack)

structure Performs (effects : List Effect) (e e' : Exchange) : Prop where
  transcript : e'.transcript = e.transcript
  requests : e'.requests = e.requests ++ handoffs effects
  finished : e.finished = true → e'.finished = true
  fatal : effects.any Effect.isFatal = true → e'.finished = true
  trace : ∃ notes, Emitted notes ∧ e'.trace = e.trace ++ notes

theorem Performs.nil (e : Exchange) : Performs [] e e :=
  ⟨rfl, (append_nil _).symm, id, nofun, [], .nil, (append_nil _).symm⟩

theorem Performs.of_emits (hfatal : effect.isFatal = true → e'.finished = true)
    (hhandoff : handoffs [effect] = []) (h : Emits e e') : Performs [effect] e e' := by
  refine ⟨h.transcript, ?_, h.finished, fun hany => hfatal ?_, h.trace⟩
  · rw [h.requests, hhandoff, append_nil]
  · rwa [any_cons, any_nil, Bool.or_false] at hany

theorem Performs.cons (h : Performs [effect] e e') (h' : Performs effects e' e'') :
    Performs (effect :: effects) e e'' := by
  obtain ⟨notes, hemitted, htrace⟩ := h.trace
  obtain ⟨notes', hemitted', htrace'⟩ := h'.trace
  refine ⟨h'.transcript.trans h.transcript, ?_, h'.finished ∘ h.finished, fun hfatal => ?_,
    notes ++ notes', hemitted.append hemitted', ?_⟩
  · rw [h'.requests, h.requests, append_assoc, ← handoffs_append, singleton_append]
  · rw [any_cons, Bool.or_eq_true] at hfatal
    obtain hfatal | hfatal := hfatal
    · refine h'.finished (h.fatal ?_)
      rw [any_cons, hfatal, Bool.true_or]
    · exact h'.fatal hfatal
  · rw [htrace', htrace, append_assoc]

theorem Moves.of_performs (frame : Frame) (hopen : e.finished = false)
    (h : Performs (e.transcript.effectsOf hpack frame)
      { e with
        transcript := e.transcript.receive hpack frame
        trace := e.trace ++ [.received frame] } e') : Moves hpack e e' :=
  .tail (.single (.receive frame hopen)) (.emit ⟨h.transcript, h.requests, h.fatal, h.trace⟩)

/-- The frames were handled one after the other until one ended the connection, and their requests
were dispatched. -/
structure Follows (hpack : Hpack) (e : Exchange) : Prop where
  transcript : e.transcript = .ofFrames hpack e.transcript.frames
  unended : Machine.AllSteps (Transcript.receive hpack) (fun t _ => t.ended = false) {}
    e.transcript.frames
  finished : e.transcript.ended = true → e.finished = true
  dispatched : e.requests = handoffs e.transcript.effects

namespace Follows

variable {hpack : Hpack} {e e' : Exchange}

theorem start : Follows hpack {} := ⟨rfl, trivial, nofun, rfl⟩

theorem receive (frame : Frame) (h : Follows hpack e) (hopen : e.finished = false) :
    Follows hpack (e.receive hpack frame) := by
  have hended : e.transcript.ended = false := by
    cases hended : e.transcript.ended with
    | false => rfl
    | true => cases hopen.symm.trans (h.finished hended)
  have hframes : (e.receive hpack frame).transcript.frames = e.transcript.frames ++ [frame] :=
    e.transcript.frames_receive frame
  refine ⟨?_, ?_, fun hfatal => ?_, ?_⟩
  · rw [hframes, Transcript.ofFrames, Machine.run_append, ← Transcript.ofFrames, ← h.transcript]
    rfl
  · rw [hframes, Machine.allSteps_append, ← Transcript.ofFrames, ← h.transcript]
    exact ⟨h.unended, hended, trivial⟩
  · change (e.transcript.receive hpack frame).ended = true at hfatal
    rwa [Transcript.ended_receive, hended] at hfatal
  · change e.requests ++ _ = handoffs (e.transcript.receive hpack frame).effects
    rw [Transcript.effects_receive, handoffs_append, h.dispatched]

theorem emit (h : Follows hpack e) (hemits : Emits e e') : Follows hpack e' := by
  have htranscript := hemits.transcript
  refine ⟨?_, ?_, fun hended => ?_, ?_⟩
  · rw [htranscript]
    exact h.transcript
  · rw [htranscript]
    exact h.unended
  · rw [htranscript] at hended
    exact hemits.finished (h.finished hended)
  · rw [hemits.requests, htranscript]
    exact h.dispatched

theorem move (h : Follows hpack e) (hmove : Move hpack e e') : Follows hpack e' := by
  cases hmove with
  | receive frame hopen => exact h.receive frame hopen
  | emit hemits => exact h.emit hemits

theorem moves (h : Moves hpack {} e) : Follows hpack e := by
  induction h with
  | refl => exact start
  | tail _ hmove ih => exact ih.move hmove

end Follows

end Exchange

end Spaznet.Http2
