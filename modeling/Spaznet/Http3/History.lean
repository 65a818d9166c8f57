import Spaznet.Http3.Endpoint
import Spaznet.Http3.Request

/-!
# A request stream until the handler is called

The server answers a request stream only when it calls the handler, and a stream that is not
answered is not retired. Until the call the stream under an id therefore changes only as its frames
and its reads change it, and what is in the buffer of the request came out of these reads. `Watch`
says what is to be shown of such a stream step by step.
-/

namespace Spaznet.Http3

open List Endpoint Quic.Connection
open Quic (Bytes Connection Action Run Stream StreamStep RecvState isBidi isClientInitiated)

variable {env : Quic.Env} {handler : RequestFn} {id : Nat}

/-! ## What was read -/

/-- What a step reads from a stream, and whether it is told that the stream ends there. -/
def readAt (id : Nat) (y : Connection × Action) : Bytes × Bool :=
  if y.2 = .readStream id ∧ y.1.faulted = false then (y.1.readStream id).1 else ([], false)

def readBytes (id : Nat) : List (Connection × Action) → Bytes
  | [] => []
  | y :: past => readBytes id past ++ (readAt id y).1

def ended (id : Nat) (past : List (Connection × Action)) : Bool := past.any fun y => (readAt id y).2

theorem readBytes_cons_of_nothing (h : readAt id y = ([], false))
    (past : List (Connection × Action)) : readBytes id (y :: past) = readBytes id past := by
  rw [readBytes, h, append_nil]

theorem ended_cons_of_nothing (h : readAt id y = ([], false)) (past : List (Connection × Action)) :
    ended id (y :: past) = ended id past := by
  rw [ended, any_cons, h, Bool.false_or, ended]

theorem readAt_of_ne (h : a ≠ .readStream id) (c : Connection) : readAt id (c, a) = ([], false) :=
  if_neg fun hread => h hread.1

theorem readStream_eq {c : Connection} (hs : c.findStream id = some s) :
    (c.readStream id).1 = s.readContiguous.1 := by
  rw [readStream, hs]

theorem readAt_eq {c : Connection} (hf : c.faulted = false) (hs : c.findStream id = some s) :
    readAt id (c, .readStream id) = s.readContiguous.1 :=
  (if_pos ⟨rfl, hf⟩).trans (readStream_eq hs)

/-! ## Streams that are not answered -/

def receiveSide (s : Stream) : List (Nat × Bytes) × Nat × Option Nat × RecvState :=
  (s.recvChunks, s.recvReadOffset, s.recvFinalSize, s.recvState)

/-- What may become of the receive side of a stream that is neither read nor retired. -/
inductive Kept (c : Connection) (id : Nat) : Action → Option Stream → Prop where
  | same : Kept c id a (c.findStream id)
  | delivered (hid : f.streamId = id) :
    Kept c id (.frame level (.stream f)) (some (c.streamAfter (streamDelivery f)))
  | reset (hid : f.streamId = id) :
    Kept c id (.frame level (.resetStream f)) (some (c.streamAfter (resetDelivery f)))
  | outbound (hs : c.findStream id = some s) (h : receiveSide s' = receiveSide s) :
    Kept c id a (some s')

/-- Nothing was finished on the send side. -/
def Unfinished (o : Option Stream) : Prop := ∀ s ∈ o, s.unfinished = true

theorem unfinished_streamOrNew {c : Connection} (h : Unfinished (c.findStream id)) :
    (c.streamOrNew id).unfinished = true := by
  unfold streamOrNew
  cases hs : c.findStream id with
  | none => rfl
  | some s => exact h s hs

/-- **Unanswered streams step by step.** -/
theorem kept_act (env : Quic.Env) (hbidi : isBidi id = true) (h : Unfinished (c.findStream id))
    (hread : a ≠ .readStream id) (hwrite : ∀ data fin, a ≠ .writeStream id data fin) :
    Kept c id a ((c.act env a).findStream id) ∧ Unfinished ((c.act env a).findStream id) := by
  have hstep := c.streamStep_act env a id
  generalize hafter : (c.act env a).findStream id = o at hstep
  cases hstep with
  | same => exact ⟨.same, h⟩
  | @delivered f _ hid =>
    refine ⟨.delivered hid, fun s hs => ?_⟩
    cases hs
    rw [Stream.unfinished_of_forgetReceived (c.forgetReceived_streamAfter_stream f), hid]
    exact unfinished_streamOrNew h
  | @reset f _ hid =>
    refine ⟨.reset hid, fun s hs => ?_⟩
    cases hs
    rw [Stream.unfinished_of_forgetReceived (c.forgetReceived_streamAfter_reset f), hid]
    exact unfinished_streamOrNew h
  | limited hs =>
    refine ⟨.outbound hs ?_, fun s' hs' => ?_⟩
    · unfold Stream.setSendLimit
      split <;> rfl
    · cases hs'
      refine Eq.trans ?_ (h _ hs)
      unfold Stream.setSendLimit
      split <;> rfl
  | written => exact absurd rfl (hwrite _ _)
  | read => exact absurd rfl hread
  | retired hs ht =>
    rw [Stream.not_terminal_of_unfinished hbidi (h _ hs)] at ht
    cases ht
  | sendSide ha hs hin =>
    refine ⟨.outbound hs (congrArg receiveSide hin :), fun s' hs' => ?_⟩
    cases hs'
    rw [findStream_act_of_packets Stream.unfinished_invariant env c ha hafter hs]
    exact h _ hs

/-! ## The rule -/

theorem isBidi_of_isRequestStream (h : isRequestStream id = true) : isBidi id = true := by
  unfold isRequestStream isUni at h
  rw [Bool.not_not] at h
  exact (Bool.and_eq_true_iff.mp h).1

/-- What is to be shown of an unanswered request stream, for every step that is as `Q` says: `P`
is kept whatever the connection does, and by the reads of the server, and the handler is called with
`G` only. -/
structure Watch (id : Nat) (Q : Connection × Action → List (Connection × Action) → Prop)
    (P : Option Stream → List (Connection × Action) → PendingRequest → Prop)
    (G : Http3Request → List (Connection × Action) → Prop) : Prop where
  other : Kept c id a o → readAt id (c, a) = ([], false) → Q (c, a) past →
    P (c.findStream id) past pr → P o ((c, a) :: past) pr
  idle : readAt id (c, .readStream id) = s.readContiguous.1 → c.findStream id = some s →
    s.readContiguous.1 = ([], false) → Q (c, .readStream id) past → P (some s) past pr →
    P (some s.readContiguous.2) ((c, .readStream id) :: past) pr
  stored : readAt id (c, .readStream id) = s.readContiguous.1 → c.findStream id = some s →
    pr.handled = false → pr.feed s.readContiguous.1.1 s.readContiguous.1.2 = (pr', stop) →
    (stop = .dry → pr'.ready = false) → Q (c, .readStream id) past → P (some s) past pr →
    P (some s.readContiguous.2) ((c, .readStream id) :: past) pr'
  called : readAt id (c, .readStream id) = s.readContiguous.1 → c.findStream id = some s →
    pr.handled = false → pr.feed s.readContiguous.1.1 s.readContiguous.1.2 = (pr', .dry) →
    pr'.ready = true → Q (c, .readStream id) past → P (some s) past pr →
    G pr'.req ((c, .readStream id) :: past)

/-- `P` holds as long as the request was not handled. -/
structure Watching (id : Nat) (P : Option Stream → List (Connection × Action) → PendingRequest → Prop)
    (G : Http3Request → List (Connection × Action) → Prop) (x : Endpoint) : Prop where
  waiting : (x.pendingAt id).handled = false → Unfinished (x.run.conn.findStream id) ∧
    P (x.run.conn.findStream id) x.run.trace (x.pendingAt id)
  calls : ∀ call ∈ x.calls, call.id = id → G call.req call.past

namespace Watch

variable {Q : Connection × Action → List (Connection × Action) → Prop}
  {P : Option Stream → List (Connection × Action) → PendingRequest → Prop}
  {G : Http3Request → List (Connection × Action) → Prop} {r : Run} {pr : PendingRequest}

theorem perform (h : Watch id Q P G) (hbidi : isBidi id = true)
    (hread : a ≠ .readStream id) (hwrite : ∀ data fin, a ≠ .writeStream id data fin)
    (hQ : Q (r.conn, a) r.trace)
    (hr : Unfinished (r.conn.findStream id) ∧ P (r.conn.findStream id) r.trace pr) :
    Unfinished ((r.perform env a).conn.findStream id) ∧
      P ((r.perform env a).conn.findStream id) (r.perform env a).trace pr := by
  unfold Run.perform
  have hnothing := readAt_of_ne hread r.conn
  refine r.conn.perform_rule env a (fun _ => ⟨hr.1, h.other .same hnothing hQ hr.2⟩) fun _ => ?_
  obtain ⟨hkept, hunfinished⟩ := kept_act env hbidi hr.1 hread hwrite
  exact ⟨hunfinished, h.other hkept hnothing hQ hr.2⟩

theorem performAll (h : Watch id Q P G) (hbidi : isBidi id = true)
    (hread : ∀ a ∈ as, a ≠ .readStream id)
    (hwrite : ∀ a ∈ as, ∀ data fin, a ≠ .writeStream id data fin)
    (hQ : Run.AtEach Q (r.performAll env as).trace)
    (hr : Unfinished (r.conn.findStream id) ∧ P (r.conn.findStream id) r.trace pr) :
    Unfinished ((r.performAll env as).conn.findStream id) ∧
      P ((r.performAll env as).conn.findStream id) (r.performAll env as).trace pr := by
  induction as generalizing r with
  | nil => exact hr
  | cons a as ih =>
    refine ih (r := r.perform env a) (fun b hb => hread b (mem_cons_of_mem _ hb))
      (fun b hb => hwrite b (mem_cons_of_mem _ hb)) hQ ?_
    have hsuffix : (r.perform env a).trace <:+ (r.performAll env (a :: as)).trace :=
      trace_suffix_performAll env (r.perform env a) as
    exact h.perform hbidi (hread a (mem_cons_self)) (hwrite a (mem_cons_self))
      (hQ _ _ hsuffix) hr

theorem serve (h : Watch id Q P G) (hbidi : isBidi id = true) (hk : k ≠ id)
    (has : ∀ a ∈ as, Endpoint.Serves k a) (hQ : Run.AtEach Q (r.performAll env as).trace)
    (hr : Unfinished (r.conn.findStream id) ∧ P (r.conn.findStream id) r.trace pr) :
    Unfinished ((r.performAll env as).conn.findStream id) ∧
      P ((r.performAll env as).conn.findStream id) (r.performAll env as).trace pr := by
  refine h.performAll hbidi (fun a ha heq => ?_) (fun a ha data fin heq => ?_) hQ hr
  all_goals
    subst heq
    cases has _ ha
    exact hk rfl

end Watch

theorem findStream_perform_read {r : Run} (hf : r.conn.faulted = false)
    (hs : r.conn.findStream id = some s) :
    (r.perform env (.readStream id)).conn.findStream id = some s.readContiguous.2 := by
  show (r.conn.perform env (.readStream id)).findStream id = _
  rw [perform_of_not_faulted env hf, act, readStream, hs]
  refine (OrdMap.find?_modify _ _ _ _).trans ?_
  rw [if_pos rfl, show r.conn.streams.find? id = some s from hs, Option.map_some]

theorem unfinished_read (h : Unfinished (some s)) : Unfinished (some s.readContiguous.2) := by
  intro s' hs'
  cases hs'
  rw [Stream.unfinished_of_forgetReceived s.forgetReceived_readContiguous]
  exact h s rfl

namespace Watching

variable {Q : Connection × Action → List (Connection × Action) → Prop}
  {P : Option Stream → List (Connection × Action) → PendingRequest → Prop}
  {G : Http3Request → List (Connection × Action) → Prop} {x x' : Endpoint}

theorem setUp (hw : Watch id Q P G) (hid : isRequestStream id = true) (h : Watching id P G x)
    (hQ : Run.AtEach Q (x.initializeServerStreams env).run.trace) :
    Watching id P G (x.initializeServerStreams env) := by
  -- The server's own streams are not request streams.
  have hother : ∀ e ∈ serverStreams, e.1 ≠ id := by
    rintro e he rfl
    simp only [serverStreams, mem_cons, not_mem_nil, or_false] at he
    obtain rfl | rfl | rfl := he <;> cases hid
  unfold initializeServerStreams at hQ ⊢
  split at hQ
  next hdone => rwa [if_pos hdone]
  next hnew =>
    rw [if_neg hnew]
    refine ⟨fun hwaits => ?_, h.calls⟩
    have hread : ∀ a ∈ serverStreams.map fun e => Action.writeStream e.1 e.2 false,
        a ≠ .readStream id := by
      rintro a ha rfl
      obtain ⟨e, -, he⟩ := mem_map.mp ha
      cases he
    refine hw.performAll (isBidi_of_isRequestStream hid) hread ?_ hQ (h.waiting hwaits)
    rintro a ha data fin rfl
    obtain ⟨e, hmem, he⟩ := mem_map.mp ha
    cases he
    exact hother e hmem rfl

theorem process_other (hw : Watch id Q P G) (hid : isRequestStream id = true)
    (h : Watching id P G x) (hk : k ≠ id) (hp : Endpoint.Processes env handler x k x')
    (hQ : Run.AtEach Q x'.run.trace) : Watching id P G x' := by
  have hpending {pr : PendingRequest} {y : Endpoint}
      (hy : y.server.pending = x.server.pending.insert k pr) : y.pendingAt id = x.pendingAt id :=
    (pendingAt_of_insert hy id).trans (if_neg (Ne.symm hk))
  obtain ⟨as, hrun, has⟩ := hp.run_eq
  have hserve : (x.pendingAt id).handled = false → Unfinished (x'.run.conn.findStream id) ∧
      P (x'.run.conn.findStream id) x'.run.trace (x.pendingAt id) := by
    intro hwaits
    rw [hrun] at hQ ⊢
    exact hw.serve (isBidi_of_isRequestStream hid) hk has hQ (h.waiting hwaits)
  cases hp with
  | aside => exact ⟨hserve, h.calls⟩
  | stored =>
    refine ⟨fun hwaits => ?_, h.calls⟩
    rw [hpending rfl] at hwaits ⊢
    exact hserve hwaits
  | called =>
    refine ⟨fun hwaits => ?_, forall_mem_append.mpr ⟨h.calls, ?_⟩⟩
    · rw [hpending rfl] at hwaits ⊢
      exact hserve hwaits
    · exact forall_mem_singleton.mpr fun hcallId => absurd hcallId hk

theorem readOf_none (hs : x.run.conn.findStream id = none) : x.readOf id = ([], false) := by
  rw [readOf, readStream, hs]

theorem finish (hw : Watch id Q P G) (hid : isRequestStream id = true) {r : Run}
    (hclose : as = [] ∨ ∃ code app reason type, as = [Action.close code app reason type])
    (hQ : Run.AtEach Q (r.performAll env (.readStream id :: as)).trace)
    (hr : Unfinished ((r.perform env (.readStream id)).conn.findStream id) ∧
      P ((r.perform env (.readStream id)).conn.findStream id)
        ((r.conn, .readStream id) :: r.trace) pr) :
    Unfinished ((r.performAll env (.readStream id :: as)).conn.findStream id) ∧
      P ((r.performAll env (.readStream id :: as)).conn.findStream id)
        (r.performAll env (.readStream id :: as)).trace pr := by
  have hother : ∀ a ∈ as, a ≠ .readStream id ∧ ∀ data fin, a ≠ .writeStream id data fin := by
    intro a ha
    obtain rfl | ⟨_, _, _, _, rfl⟩ := hclose
    · cases ha
    · obtain rfl := mem_singleton.mp ha
      exact ⟨nofun, nofun⟩
  exact hw.performAll (r := r.perform env (.readStream id)) (isBidi_of_isRequestStream hid)
    (fun a ha => (hother a ha).1) (fun a ha => (hother a ha).2) hQ hr

theorem process (hw : Watch id Q P G) (hid : isRequestStream id = true) (h : Watching id P G x)
    (hf : x.run.conn.faulted = false) (hp : Endpoint.Processes env handler x id x')
    (hQ : Run.AtEach Q x'.run.trace) : Watching id P G x' := by
  have hpending {pr : PendingRequest} {y : Endpoint}
      (hy : y.server.pending = x.server.pending.insert id pr) : y.pendingAt id = pr :=
    (pendingAt_of_insert hy id).trans (if_pos rfl)
  have hQread {as : List Action}
      (hQ : Run.AtEach Q (x.run.performAll env (.readStream id :: as)).trace) :
      Q (x.run.conn, .readStream id) x.run.trace :=
    hQ _ _ (trace_suffix_performAll env (x.run.perform env (.readStream id)) as)
  cases hp with
  | aside as hread hclose =>
    refine ⟨fun hwaits => finish hw hid hclose hQ ?_, h.calls⟩
    obtain ⟨hunfinished, hP⟩ := h.waiting hwaits
    cases hs : x.run.conn.findStream id with
    | none =>
      have hsame : (x.run.perform env (.readStream id)).conn = x.run.conn := by
        show x.run.conn.perform env (.readStream id) = _
        rw [perform_of_not_faulted env hf, act, readStream, hs]
      rw [hsame]
      refine ⟨hunfinished, hw.other .same ?_ (hQread hQ) hP⟩
      exact (if_pos ⟨rfl, hf⟩).trans (readOf_none hs)
    | some s =>
      have hread := (readStream_eq hs).symm.trans (hread hid)
      rw [hs] at hunfinished hP
      rw [findStream_perform_read hf hs]
      exact ⟨unfinished_read hunfinished, hw.idle (readAt_eq hf hs) hs hread (hQread hQ) hP⟩
  | @stored pr stop as _ hsome hfeed hnot hclose =>
    refine ⟨fun hwaits => ?_, h.calls⟩
    rw [hpending rfl] at hwaits ⊢
    refine finish hw hid hclose hQ ?_
    have hbefore : (x.pendingAt id).handled = false :=
      (PendingRequest.handled_feed hfeed).symm.trans hwaits
    obtain ⟨hunfinished, hP⟩ := h.waiting hbefore
    cases hs : x.run.conn.findStream id with
    | none => exact absurd (readOf_none hs) hsome
    | some s =>
      rw [readOf, readStream_eq hs] at hfeed
      rw [hs] at hunfinished hP
      rw [findStream_perform_read hf hs]
      exact ⟨unfinished_read hunfinished,
        hw.stored (readAt_eq hf hs) hs hbefore hfeed hnot (hQread hQ) hP⟩
  | @called pr as _ hsome hfeed hready =>
    refine ⟨fun hwaits => ?_, fun call hcall hcallId => ?_⟩
    · rw [hpending rfl] at hwaits
      cases hwaits
    obtain hcall | hcall := mem_append.mp hcall
    · exact h.calls call hcall hcallId
    obtain rfl := mem_singleton.mp hcall
    have hbefore : (x.pendingAt id).handled = false := by
      rw [← PendingRequest.handled_feed hfeed]
      exact PendingRequest.handled_of_ready hready
    obtain ⟨-, hP⟩ := h.waiting hbefore
    cases hs : x.run.conn.findStream id with
    | none => exact absurd (readOf_none hs) hsome
    | some s =>
      rw [readOf, readStream_eq hs] at hfeed
      rw [hs] at hP
      exact hw.called (readAt_eq hf hs) hs hbefore hfeed hready (hQread hQ) hP

theorem step (hw : Watch id Q P G) (hid : isRequestStream id = true) (s : Endpoint.Step)
    (hfair : s.Fair x) (h : Watching id P G x)
    (hQ : Run.AtEach Q (x.step env handler s).run.trace) :
    Watching id P G (x.step env handler s) := by
  cases s with
  | own a =>
    exact ⟨fun hwaits => hw.perform (isBidi_of_isRequestStream hid) (hfair.1 id) (hfair.2 id)
      (hQ _ _ suffix_rfl) (h.waiting hwaits), h.calls⟩
  | setUp => exact h.setUp hw hid hQ
  | process k =>
    have hp := processes_processStream env handler x k
    by_cases hk : k = id
    · subst hk
      exact h.process hw hid hfair.1 hp hQ
    · exact h.process_other hw hid hk hp hQ

end Watching

/-- **Watching a request stream.** -/
theorem Watch.ofEvents (hw : Watch id Q P G)
    (hid : isRequestStream id = true) (hnew : c.findStream id = none) (hP : P none [] {})
    (events : List Endpoint.Event)
    (hQ : Run.AtEach Q (ofEvents env handler c events).run.trace) :
    Watching id P G (ofEvents env handler c events) := by
  refine Endpoint.Reaches.invariant (I := Watching id P G)
    (fun x s hfair h hQ => h.step hw hid s hfair hQ)
    (reaches_ofEvents env handler c events) ⟨fun _ => ?_, nofun⟩ hQ
  rw [hnew]
  exact ⟨nofun, hP⟩

end Spaznet.Http3
