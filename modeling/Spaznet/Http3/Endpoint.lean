import Spaznet.Http3.Server
import Spaznet.Quic.Connection.SendSide

/-!
# Steps of an endpoint

Whatever happens to an endpoint is a sequence of elementary steps: an action that the connection
takes by itself, the opening of the server's streams, and the processing of one stream. `Processes`
says once what the processing of a stream can do.
-/

namespace Spaznet.Http3

open List
open Quic (Bytes Connection Action Run Stream isBidi isClientInitiated)

namespace Endpoint

inductive Step where
  | own (a : Action)
  | setUp
  | process (id : Nat)

def step (env : Quic.Env) (handler : RequestFn) (x : Endpoint) : Step → Endpoint
  | .own a => x.perform env a
  | .setUp => x.initializeServerStreams env
  | .process id => (x.processStream env handler id).1

def isServerStream (id : Nat) : Bool :=
  id ∈ [kServerControl, kServerQpackEncoder, kServerQpackDecoder]

def Step.Fair (x : Endpoint) : Step → Prop
  | .own a => Run.IsOwn a
  | .setUp => x.run.conn.faulted = false
  | .process id => x.run.conn.faulted = false ∧ isServerStream id = false

def Reaches (env : Quic.Env) (handler : RequestFn) (x x' : Endpoint) : Prop :=
  ∃ steps, Machine.AllSteps (step env handler) Step.Fair x steps ∧
    x' = Machine.run (step env handler) x steps

variable {env : Quic.Env} {handler : RequestFn} {x x' : Endpoint} {id : Nat}

theorem Reaches.refl (x : Endpoint) : Reaches env handler x x := ⟨[], trivial, rfl⟩

theorem Reaches.trans (h : Reaches env handler x x') (h' : Reaches env handler x' x'') :
    Reaches env handler x x'' := by
  obtain ⟨steps, hfair, rfl⟩ := h
  obtain ⟨steps', hfair', rfl⟩ := h'
  exact ⟨steps ++ steps', (Machine.allSteps_append).mpr ⟨hfair, hfair'⟩,
    (Machine.run_append _ _ _).symm⟩

theorem Reaches.of_step (s : Step) (h : s.Fair x) : Reaches env handler x (x.step env handler s) :=
  ⟨[s], ⟨h, trivial⟩, rfl⟩

theorem reaches_of_own (x : Endpoint) (h : Run.ReachesBy env Run.IsOwn x.run r') :
    Reaches env handler x { x with run := r' } := by
  obtain ⟨as, hown, rfl⟩ := h
  induction as generalizing x with
  | nil => exact .refl x
  | cons a as ih =>
    have hfirst : Reaches env handler x _ := .of_step (.own a) (hown a (mem_cons_self))
    exact hfirst.trans (ih (x.perform env a) fun b hb => hown b (mem_cons_of_mem _ hb))

/-! ## What the server does to the connection -/

/-- The actions of the server on behalf of a stream. -/
inductive Serves (id : Nat) : Action → Prop where
  | read : Serves id (.readStream id)
  | write (data : Bytes) (fin : Bool) : Serves id (.writeStream id data fin)
  | close (errorCode : Nat) (application : Bool) (reason : Bytes) (frameType : Nat) :
    Serves id (.close errorCode application reason frameType)

theorem Serves.faulted_act (h : Serves id a) (c : Connection) :
    (c.act env a).faulted = c.faulted := by
  cases h with
  | read =>
    show (c.readStream id).2.faulted = _
    unfold Connection.readStream
    split <;> rfl
  | write data fin => exact congrArg (fun c => c.faulted) (c.forgetRecv_ensureStream id)
  | close => rfl

theorem Serves.faulted_performAll (has : ∀ a ∈ as, Serves id a) (r : Run) :
    (r.performAll env as).conn.faulted = r.conn.faulted := by
  induction as generalizing r with
  | nil => rfl
  | cons a as ih =>
    refine (ih (fun b hb => has b (mem_cons_of_mem _ hb)) _).trans ?_
    show (r.conn.perform env a).faulted = _
    exact r.conn.perform_rule env a (fun _ => rfl) fun _ =>
      (has a mem_cons_self).faulted_act r.conn

/-! ## The processing of a stream -/

theorem pendingAt_of_insert {y : Endpoint} (h : y.server.pending = x.server.pending.insert k pr)
    (id : Nat) :
    y.pendingAt id = if id = k then pr else x.pendingAt id := by
  rw [pendingAt, h, OrdMap.find?_insert]
  split <;> rfl

inductive Processes (env : Quic.Env) (handler : RequestFn) (x : Endpoint) (id : Nat) :
    Endpoint → Prop where
  /-- There is nothing to read, or it is not a request stream. -/
  | aside {uni : OrdMap PendingUni} (as : List Action)
    (hread : isRequestStream id = true → x.readOf id = ([], false))
    (hclose : as = [] ∨ ∃ code app reason type, as = [.close code app reason type])
    (huni : uni = x.server.uni ∨ ∃ u, x.readOf id ≠ ([], false) ∧ isUni id = true ∧
      uni = x.server.uni.insert id u ∧
        (u = x.uniAt id ∨ (x.uniAt id).feed (x.readOf id).1 = some u)) :
    Processes env handler x id
      { run := x.run.performAll env (.readStream id :: as)
        server := { x.server with uni }
        calls := x.calls }
  /-- The request is not complete, or its reading is given up. -/
  | stored {pr : PendingRequest} {stop : Drained} (as : List Action)
    (hrequest : isRequestStream id = true) (hread : x.readOf id ≠ ([], false))
    (hfeed : (x.pendingAt id).feed (x.readOf id).1 (x.readOf id).2 = (pr, stop))
    (hwaits : stop = .dry → pr.ready = false)
    (hclose : as = [] ∨ ∃ code app reason type, as = [.close code app reason type]) :
    Processes env handler x id
      { run := x.run.performAll env (.readStream id :: as)
        server := { x.server with pending := x.server.pending.insert id pr }
        calls := x.calls }
  | called {pr : PendingRequest} (as : List Action) (hrequest : isRequestStream id = true)
    (hread : x.readOf id ≠ ([], false))
    (hfeed : (x.pendingAt id).feed (x.readOf id).1 (x.readOf id).2 = (pr, .dry))
    (hready : pr.ready = true)
    (hwrite : as = [] ∨ ∃ wire, as = [.writeStream id wire true]) :
    Processes env handler x id
      { run := x.run.performAll env (.readStream id :: as)
        server := { x.server with
          pending := x.server.pending.insert id { pr with handled := true } }
        calls := x.calls ++ [⟨id, pr.req, (x.run.perform env (.readStream id)).trace⟩] }

theorem processes_processStream (env : Quic.Env) (handler : RequestFn) (x : Endpoint) (id : Nat) :
    Processes env handler x id (x.processStream env handler id).1 := by
  unfold processStream
  cases hread : x.readOf id with
  | mk chunk fin =>
    dsimp only
    split
    next hidle =>
      obtain ⟨rfl, rfl⟩ := hidle
      exact .aside [] (fun _ => hread) (.inl rfl) (.inl rfl)
    next hbusy =>
      have hsome : x.readOf id ≠ ([], false) := fun h => hbusy (Prod.mk.inj (hread.symm.trans h))
      split
      next huni =>
        obtain ⟨huni, -⟩ := Bool.and_eq_true_iff.mp huni
        have hother : isRequestStream id = true → x.readOf id = ([], false) := by
          intro h
          rw [isRequestStream, huni] at h
          cases h
        unfold processUni
        split
        · exact .aside _ hother (.inr ⟨_, _, _, _, rfl⟩)
            (.inr ⟨_, hsome, huni, rfl, .inl rfl⟩)
        next u hu =>
          refine .aside [] hother (.inl rfl) (.inr ⟨u, hsome, huni, rfl, .inr ?_⟩)
          rw [hread]
          exact hu
      split
      next hother =>
        refine .aside [] (fun h => ?_) (.inl rfl) (.inl rfl)
        rw [h] at hother
        cases hother
      next hrequest =>
        have hrequest : isRequestStream id = true := by simpa using hrequest
        have hpending : (x.perform env (.readStream id)).pendingAt id = x.pendingAt id := rfl
        unfold processRequest
        rw [hpending]
        cases hfeed : (x.pendingAt id).feed chunk fin with
        | mk pr stop =>
          have hfeed' : (x.pendingAt id).feed (x.readOf id).1 (x.readOf id).2 = (pr, stop) := by
            rw [hread]
            exact hfeed
          cases stop with
          | excessive reason =>
            exact .stored _ hrequest hsome hfeed' nofun (.inr ⟨_, _, _, _, rfl⟩)
          | undecodable => exact .stored [] hrequest hsome hfeed' nofun (.inl rfl)
          | dry =>
            dsimp only
            split
            next hready =>
              unfold respond
              split
              · exact .called [] hrequest hsome hfeed' hready (.inl rfl)
              · exact .called _ hrequest hsome hfeed' hready (.inr ⟨_, rfl⟩)
            next hwaits =>
              exact .stored [] hrequest hsome hfeed'
                (fun _ => Bool.eq_false_iff.mpr hwaits) (.inl rfl)

theorem Processes.run_eq (h : Processes env handler x id x') :
    ∃ as, x'.run = x.run.performAll env as ∧ ∀ a ∈ as, Serves id a := by
  have hclosed {as : List Action}
      (has : as = [] ∨ ∃ code app reason type, as = [Action.close code app reason type]) :
      ∀ a ∈ Action.readStream id :: as, Serves id a := by
    intro a ha
    obtain rfl | ha := mem_cons.mp ha
    · exact .read
    obtain rfl | ⟨_, _, _, _, rfl⟩ := has
    · cases ha
    · obtain rfl := mem_singleton.mp ha
      exact .close _ _ _ _
  cases h with
  | aside _ _ hclose | stored _ _ _ _ _ hclose => exact ⟨_, rfl, hclosed hclose⟩
  | called _ _ _ _ _ hwrite =>
    refine ⟨_, rfl, fun a ha => ?_⟩
    obtain rfl | ha := mem_cons.mp ha
    · exact .read
    obtain rfl | ⟨_, rfl⟩ := hwrite
    · cases ha
    · obtain rfl := mem_singleton.mp ha
      exact .write _ _

/-! ## Events -/

theorem reaches_processAll (ids : List Nat) (x : Endpoint) (hf : x.run.conn.faulted = false)
    (hids : ∀ id ∈ ids, isServerStream id = false) :
    Reaches env handler x (processAll env handler ids x) := by
  induction ids generalizing x with
  | nil => exact .refl x
  | cons id ids ih =>
    have hfirst : Reaches env handler x _ :=
      .of_step (.process id) ⟨hf, hids id (mem_cons_self)⟩
    change Reaches env handler x (x.processStream env handler id).1 at hfirst
    obtain ⟨as, hrun, has⟩ := (processes_processStream env handler x id).run_eq
    have hf' : (x.processStream env handler id).1.run.conn.faulted = false := by
      rw [hrun, Serves.faulted_performAll has]
      exact hf
    unfold processAll
    split
    next heq =>
      rw [heq] at hfirst hf'
      exact hfirst.trans (ih _ hf' fun k hk => hids k (mem_cons_of_mem _ hk))
    next heq => rwa [heq] at hfirst

theorem faulted_initializeServerStreams (env : Quic.Env) (x : Endpoint) :
    (x.initializeServerStreams env).run.conn.faulted = x.run.conn.faulted := by
  have hwrite (streamId : Nat) (data : Bytes) (r : Run) :
      (r.perform env (.writeStream streamId data false)).conn.faulted = r.conn.faulted :=
    have has : ∀ a ∈ [Action.writeStream streamId data false], Serves streamId a := by
      intro a ha
      obtain rfl := mem_singleton.mp ha
      exact .write _ _
    Serves.faulted_performAll has r
  unfold initializeServerStreams
  split
  · rfl
  · exact ((hwrite _ _ _).trans (hwrite _ _ _)).trans (hwrite _ _ _)

theorem reaches_pump (x : Endpoint) : Reaches env handler x (x.pump env handler) := by
  unfold pump
  split
  · exact .refl x
  next hgoes =>
    have hf : x.run.conn.faulted = false := by
      cases hfault : x.run.conn.faulted with
      | false => rfl
      | true =>
        rw [hfault, Bool.or_true] at hgoes
        exact absurd rfl hgoes
    have hinit : Reaches env handler x (x.initializeServerStreams env) := .of_step .setUp hf
    have hf' := (faulted_initializeServerStreams env x).trans hf
    refine hinit.trans (reaches_processAll _ _ hf' fun id hid => ?_)
    have hkept := (mem_filter.mp hid).2
    simpa [isServerStream] using hkept

theorem reaches_handle (x : Endpoint) (e : Event) :
    Reaches env handler x (x.handle env handler e) := by
  cases e with
  | datagram bytes => exact reaches_of_own x (x.run.reachesBy_onDatagram bytes)
  | timer => exact reaches_of_own x x.run.reachesBy_onTimer
  | closeWithError | markPeerAddressValidated | initiateKeyUpdate =>
    exact .of_step (.own _) ⟨nofun, nofun⟩
  | pump => exact x.reaches_pump

theorem reaches_ofEvents (env : Quic.Env) (handler : RequestFn) (c : Connection)
    (events : List Event) :
    Reaches env handler { run := ⟨c, []⟩ } (ofEvents env handler c events) := by
  unfold ofEvents
  generalize ({ run := ⟨c, []⟩ } : Endpoint) = x
  induction events generalizing x with
  | nil => exact .refl x
  | cons e events ih => exact (x.reaches_handle e).trans (ih _)

/-! ## Induction along a run -/

theorem trace_suffix_performAll (env : Quic.Env) (r : Run) (as : List Action) :
    r.trace <:+ (r.performAll env as).trace := by
  induction as generalizing r with
  | nil => exact suffix_rfl
  | cons a as ih => exact (suffix_cons _ _).trans (ih (r.perform env a))

theorem trace_suffix_step (x : Endpoint) (s : Step) :
    x.run.trace <:+ (x.step env handler s).run.trace := by
  cases s with
  | own a => exact suffix_cons _ _
  | setUp =>
    show _ <:+ (x.initializeServerStreams env).run.trace
    unfold initializeServerStreams
    split
    · exact suffix_rfl
    · exact trace_suffix_performAll env x.run
        (serverStreams.map fun e => .writeStream e.1 e.2 false)
  | process id =>
    obtain ⟨as, hrun, -⟩ := (processes_processStream env handler x id).run_eq
    show _ <:+ (x.processStream env handler id).1.run.trace
    rw [hrun]
    exact trace_suffix_performAll env x.run as

/-- **Invariant rule.** What every step keeps whose past is as `Q` says, a run keeps whose past is
as `Q` says. -/
theorem Reaches.invariant {I : Endpoint → Prop} (hstep : ∀ x s, s.Fair x → I x →
      Run.AtEach Q (x.step env handler s).run.trace → I (x.step env handler s))
    (h : Reaches env handler x x') (hI : I x) (hQ : Run.AtEach Q x'.run.trace) : I x' := by
  obtain ⟨steps, hfair, rfl⟩ := h
  induction steps generalizing x with
  | nil => exact hI
  | cons s steps ih =>
    obtain ⟨hs, hfair⟩ := hfair
    refine ih (hstep x s hs hI ?_) hfair hQ
    -- The past at this point is the end of the past of the whole run.
    have hsuffix : (x.step env handler s).run.trace <:+
        (Machine.run (step env handler) x (s :: steps)).run.trace := by
      clear hQ hI ih hfair hs
      rw [Machine.run_cons]
      generalize x.step env handler s = y
      induction steps generalizing y with
      | nil => exact suffix_rfl
      | cons s steps ih => exact (y.trace_suffix_step s).trans (ih _)
    exact fun y past hy => hQ y past (hy.trans hsuffix)

end Endpoint

end Spaznet.Http3
