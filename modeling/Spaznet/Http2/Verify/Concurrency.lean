import Spaznet.Http2.Verify.StreamIdentity

/-!
# Concurrent streams

A HEADERS frame is refused if the table is full. A stream leaves the table when its request is
dispatched, however long the handler takes, so that the requests that wait for their handlers are
not counted.
-/

namespace Spaznet.Http2

open List

/-! ## The table -/

/-- A stream that is dispatched leaves the table, and only an opening makes room in it. -/
theorem length_settle (s : Session) (streamId : Nat) (verdict : Verdict)
    (h : (s.streams.erase streamId).entries.length + 1 ≤ n) (hs : s.streams.entries.length ≤ n) :
    (s.settle streamId verdict).1.streams.entries.length +
      (handoffs (s.settle streamId verdict).2).length ≤ n := by
  cases verdict with
  | fatal => exact hs
  | reset => exact Nat.le_of_succ_le h
  | keep stream => exact (OrdMap.entries_insert_perm ..).length_eq.trans_le h
  | finish => exact h

theorem length_of_handles {s : Session} (h : s.Handles hpack frame result) :
    result.1.streams.entries.length + (handoffs result.2).length ≤
      s.streams.entries.length + (openings result.2).length := by
  have herase (m : OrdMap Stream) (id : Nat) : (m.erase id).entries.length ≤ m.entries.length :=
    length_filter_le _ _
  cases h with
  | @apart _ effects _ hstreams _ heffects =>
    have hnone : handoffs effects = [] := filterMap_eq_nil_iff.mpr fun e he => by
      obtain rfl | ⟨_, rfl⟩ := heffects e he
      · rfl
      · rfl
    rw [hstreams, hnone]
    exact Nat.le_add_right _ _
  | fatal => exact Nat.le_refl _
  | dropped | reset => exact herase _ _
  | opens _ _ hnew =>
    change _ + (handoffs _).length ≤ _ + (_ :: openings _).length
    rw [Session.openings_settle]
    refine length_settle s _ _ ?_ (Nat.le_succ _)
    rw [OrdMap.erase_of_find?_none hnew]
    exact Nat.le_refl _
  | @reads stream verdict credit hlive _ hcredit =>
    have hnone : handoffs credit = [] := filterMap_eq_nil_iff.mpr fun e he => by
      obtain ⟨_, _, rfl⟩ := hcredit e he
      rfl
    rw [handoffs_append, hnone]
    refine (length_settle s _ _ ?_ (Nat.le_refl _)).trans (Nat.le_add_right _ _)
    exact Nat.le_of_eq ((OrdMap.entries_erase_perm (OrdMap.mem_entries.mpr hlive)).length_eq.symm)

/-- A frame that opens a stream finds room in the table. -/
theorem openings_effectsOf (hpack : Hpack) (t : Transcript) (frame : Frame) :
    openings (t.effectsOf hpack frame) = [] ∨
      frame.type = .headers ∧ t.session.streams.find? frame.streamId = none ∧
        t.session.streams.entries.length < kMaxConcurrentStreams ∧
        (openings (t.effectsOf hpack frame)).length = 1 := by
  have hopens := openings_of_handles
    (Session.handles_handleFrame hpack frame (t.session.charge frame))
  rw [Session.streams_charge] at hopens
  obtain hnone | ⟨htype, hnew, hone⟩ := hopens
  · exact .inl hnone
  refine .inr ⟨htype, hnew, ?_, congrArg List.length hone⟩
  by_contra hfull
  by_cases hid : frame.streamId = 0
  · have heffects := ((refuses hpack t frame).zero htype hid).1
    rw [Transcript.effectsOf] at heffects
    rw [heffects] at hone
    cases hone
  · have heffects := ((refuses hpack t frame).full htype hid hnew (Nat.not_lt.mp hfull)).1
    rw [Transcript.effectsOf] at heffects
    rw [heffects] at hone
    cases hone

/-! ## Requests that wait -/

namespace Http2Connection

variable {env : Env} {c c' : Http2Connection}

/-- The streams of the table, and the requests that wait for their handlers. -/
def load (c : Http2Connection) : Nat := c.transcript.session.streams.entries.length + c.waiting

theorem Writes.load_eq (h : Writes frames c c') : c'.load = c.load := by
  unfold load waiting
  rw [h.transcript, h.writers]

theorem load_complete (env : Env) (n : Nat) (response : Response) (c : Http2Connection) :
    (c.complete env n response).load ≤ c.load := by
  unfold complete
  split
  next request failed hn =>
    have hset : load { c with
        writers := c.writers.set n { request, response := some response, failed } } ≤ c.load :=
      Nat.add_le_add_left (Replace.countP_set_le _ _ rfl) _
    unfold onResponseReady
    dsimp only
    split
    · exact hset
    · rw [(writes_foldl env _ _).load_eq]
      exact hset
  · exact Nat.le_refl _

theorem load_beginDispatch (request : Request) (c : Http2Connection) :
    (c.beginDispatch request).load = c.load + 1 := by
  unfold load waiting beginDispatch
  rw [countP_append]
  rfl

theorem load_dispatchRequest (env : Env) (request : Request) (c : Http2Connection) :
    (c.dispatchRequest env request).load ≤ c.load + 1 := by
  rw [← load_beginDispatch request c]
  unfold dispatchRequest
  dsimp only
  split
  · exact load_complete env _ _ _
  split
  · refine (writes_writeFrame env _ _).load_eq.trans_le ?_
    exact Nat.add_le_add_left (Replace.countP_set_le _ _ rfl) _
  · exact Nat.le_refl _

theorem load_perform (env : Env) (c : Http2Connection) (effects : List Effect) :
    (effects.foldl (perform env) c).load ≤ c.load + (handoffs effects).length := by
  induction effects generalizing c with
  | nil => exact Nat.le_refl _
  | cons effect effects ih =>
    refine (ih (c.perform env effect)).trans ?_
    by_cases hhandoff : ∃ request, effect = .handoff request
    · obtain ⟨request, rfl⟩ := hhandoff
      have hdispatch := load_dispatchRequest env request c
      change (c.dispatchRequest env request).load + _ ≤ c.load + (_ :: handoffs effects).length
      rw [length_cons]
      omega
    · have hne := not_exists.mp hhandoff
      obtain ⟨_, -, hwrites⟩ := quiet_perform env c hne
      rw [hwrites.load_eq, handoffs_cons_of_ne hne]

theorem load_handleFrame (env : Env) (frame : Frame) (c : Http2Connection) :
    (c.handleFrame env frame).load ≤
      c.load + (openings (c.transcript.effectsOf env.hpack frame)).length := by
  have hperform := load_perform env (record (.received frame) { c with
    transcript := c.transcript.receive env.hpack frame }) (c.transcript.effectsOf env.hpack frame)
  have htable := length_of_handles
    (Session.handles_handleFrame env.hpack frame (c.transcript.session.charge frame))
  rw [Session.streams_charge] at htable
  change (c.transcript.receive env.hpack frame).session.streams.entries.length +
    (handoffs (c.transcript.effectsOf env.hpack frame)).length ≤
      _ + (openings (c.transcript.effectsOf env.hpack frame)).length at htable
  change (c.handleFrame env frame).load ≤
    (c.transcript.receive env.hpack frame).session.streams.entries.length + c.waiting + _ at hperform
  change _ ≤ c.transcript.session.streams.entries.length + c.waiting + _
  omega

/-! ## The limit -/

def Opens (c : Http2Connection) (frame : Frame) : Prop :=
  frame.type = .headers ∧ c.transcript.session.streams.find? frame.streamId = none
  deriving Decidable

/-- When a stream is opened there is room for it, requests that wait included, unless the table is
full. -/
def Roomy (c : Http2Connection) : Action → Prop
  | .item (.frame frame) =>
    c.Opens frame → c.transcript.session.streams.entries.length < kMaxConcurrentStreams →
      c.load < kMaxConcurrentStreams
  | _ => True

instance Roomy.decidable (c : Http2Connection) : ∀ action, Decidable (c.Roomy action)
  | .item (.frame _) => inferInstanceAs (Decidable (_ → _ → _))
  | .item .greeting | .item .stranger | .item .header | .item .oversized | .fail | .writable
  | .complete _ _ => isTrue trivial

theorem load_act (action : Action) (h : c.load ≤ kMaxConcurrentStreams) (hroomy : c.Roomy action) :
    (act env c action).load ≤ kMaxConcurrentStreams := by
  cases action with
  | item item =>
    unfold act
    dsimp only
    split
    · exact h
    cases item with
    | greeting => exact (writes_writeFrame env c _).load_eq.trans_le h
    | stranger => exact (writes_closing.trans writes_close).load_eq.trans_le h
    | header => exact h
    | oversized => exact (writes_fatal env _ c).1.load_eq.trans_le h
    | frame frame =>
      refine (load_handleFrame env frame c).trans ?_
      obtain hnone | ⟨htype, hnew, hroom, hone⟩ :=
        openings_effectsOf env.hpack c.transcript frame
      · rw [hnone]
        exact h
      · rw [hone]
        exact hroomy ⟨htype, hnew⟩ hroom
  | fail => exact writes_close.load_eq.trans_le h
  | writable => exact writes_onWritable.load_eq.trans_le h
  | complete n response => exact (load_complete env n response c).trans h

/-- The limit is kept, and a frame beyond it is refused. -/
structure Limited (env : Env) (c : Http2Connection) (action : Action) : Prop where
  load : c.load ≤ kMaxConcurrentStreams
  refused : ∀ frame, action = .item (.frame frame) → c.Opens frame → frame.streamId ≠ 0 →
    c.load ≥ kMaxConcurrentStreams →
    c.transcript.effectsOf env.hpack frame = [.rstStream frame.streamId 0x7] ∧
      (c.transcript.receive env.hpack frame).session.streams = c.transcript.session.streams

theorem limited_of_roomy (h : c.load ≤ kMaxConcurrentStreams) (hroomy : c.Roomy action) :
    Limited env c action := by
  refine ⟨h, ?_⟩
  rintro frame rfl hopens hid hfull
  refine (refuses env.hpack c.transcript frame).full hopens.1 hid hopens.2 ?_
  by_contra hroom
  exact absurd hfull (Nat.not_le.mpr (hroomy hopens (Nat.not_le.mp hroom)))

/-- If streams are opened only when there is room, requests that wait included, or when the table is
full, then the limit is kept throughout and a HEADERS frame beyond it is refused. -/
theorem concurrency_limit (env : Env) (ctx : Reactor.IOContext) (events : List Event)
    (h : Machine.AllSteps (act env) Roomy { ctx } (actions {} events)) :
    Machine.AllSteps (act env) (Limited env) { ctx } (actions {} events) ∧
      (run env ctx events).load ≤ kMaxConcurrentStreams := by
  have hstart : ({ ctx } : Http2Connection).load ≤ kMaxConcurrentStreams := Nat.zero_le _
  refine ⟨.of_invariant (I := fun c => c.load ≤ kMaxConcurrentStreams)
    (fun _ action => load_act action) (fun _ _ => limited_of_roomy) hstart h, ?_⟩
  have hend := Machine.run_invariant (I := fun c => c.load ≤ kMaxConcurrentStreams)
    (fun _ action => load_act action) hstart h
  have hcore := congrArg load (core_run env ctx events)
  exact (show (run env ctx events).load = _ from hcore) ▸ hend

def burst (n : Nat) : Http2Connection :=
  run .deferring {} [.client ((List.range n).map fun i => headersFrame (2 * i + 1) 0x5)]

theorem concurrency_limit_two : (burst 2).load = 2 ∧ (burst 2).load ≤ kMaxConcurrentStreams :=
  ⟨by decide +kernel, (concurrency_limit .deferring {} _ (by decide +kernel)).2⟩

/-- Requests on 101 streams are dispatched, and none of them is refused. -/
theorem limit_exceeded : (burst 101).load = 101 ∧
    ((burst 101).writers.map fun w => w.request.streamId).Nodup := by
  decide +kernel

end Http2Connection

end Spaznet.Http2
