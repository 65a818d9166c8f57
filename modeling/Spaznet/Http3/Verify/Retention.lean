import Spaznet.Http3.Content

/-!
# What the server retains

`pending_` and `uni_` keep the state of a stream under its id, and nothing erases an entry. As long
as no stream is retired that was read from, every entry is that of a stream which is alive. The
bytes of an entry are bounded by the bytes that were read from its stream: decoding a field section
makes it longer by a factor at most. The buffers have limits of their own, but nothing limits the
number of field sections on one stream.
-/

namespace Spaznet.Http3

open List OrdMap Endpoint
open Quic (Bytes Connection Action Run Stream)

/-! ## Sizes -/

def Http3Request.size (req : Http3Request) : Nat :=
  req.method.length + req.scheme.length + req.authority.length + req.path.length +
    fieldsSize req.headers + req.body.length

def PendingRequest.size (pr : PendingRequest) : Nat := pr.recvBuf.length + pr.req.size

def PendingUni.size (u : PendingUni) : Nat := u.buf.length

/-- The bytes that the server retains for the streams of its connection. -/
def Http3Server.retained (server : Http3Server) : Nat :=
  server.pending.sum (fun _ pr => pr.size) + server.uni.sum fun _ u => u.size

/-- The bytes retained for one stream: all that was read from it, under the best compression. -/
def kMaxRetained : Nat := kMaxExpansion * kMaxRequestStreamBytes

theorem Http3Request.size_addField (req : Http3Request) (field : Bytes × Bytes) :
    (req.addField field).size ≤ req.size + (field.1.length + field.2.length) := by
  have hfields : fieldsSize (req.headers ++ [field]) =
      fieldsSize req.headers + (field.1.length + field.2.length) := by
    rw [fieldsSize, fieldsSize]
    simp
  unfold addField size
  repeat' split
  all_goals dsimp only
  all_goals omega

theorem Http3Request.size_addFields (req : Http3Request) (fields : HeaderList) :
    (req.addFields fields).size ≤ req.size + fieldsSize fields := by
  unfold addFields
  induction fields generalizing req with
  | nil => exact Nat.le_refl _
  | cons field fields ih =>
    have hcons : fieldsSize (field :: fields) =
        field.1.length + field.2.length + fieldsSize fields := sum_cons
    have hfirst := req.size_addField field
    have hrest := ih (req.addField field)
    rw [foldl_cons]
    omega

namespace PendingRequest

/-- What the request may come to, with all that is in the buffer. -/
def weight (pr : PendingRequest) : Nat := kMaxExpansion * pr.recvBuf.length + pr.req.size

theorem size_le_weight (pr : PendingRequest) : pr.size ≤ pr.weight := by
  unfold size weight kMaxExpansion
  omega

theorem size_onFrame {pr pr' : PendingRequest} (h : pr.onFrame f = .ok pr') :
    pr'.recvBuf = pr.recvBuf ∧ pr'.req.size ≤ pr.req.size + kMaxExpansion * f.payload.length := by
  cases f with
  | headers section_ =>
    rw [onFrame] at h
    split at h
    · cases h
    split at h
    · cases h
    next fields hfields =>
      cases h
      have hsize := pr.req.size_addFields fields
      have hdecoded := size_qpackDecode hfields
      exact ⟨rfl, hsize.trans (Nat.add_le_add_left hdecoded _)⟩
  | data data =>
    rw [onFrame] at h
    split at h
    · cases h
    cases h
    refine ⟨rfl, ?_⟩
    have hpayload : (H3Frame.data data).payload = data := rfl
    rw [Http3Request.size, Http3Request.size, length_append, hpayload, kMaxExpansion]
    dsimp only
    omega
  | settings | goAway | maxPushId | cancelPush | reserved =>
    cases h
    exact ⟨rfl, Nat.le_add_right _ _⟩

theorem weight_drain (fuel : Nat) (pr : PendingRequest) : (drain fuel pr).1.weight ≤ pr.weight := by
  induction fuel generalizing pr with
  | zero => exact Nat.le_refl _
  | succ fuel ih =>
    unfold drain
    split
    · exact Nat.le_refl _
    next f rest hsome =>
      have hlt := payload_consume hsome
      split
      · unfold weight kMaxExpansion
        dsimp only
        omega
      next pr' hok =>
        refine (ih pr').trans ?_
        obtain ⟨hbuf, hsize⟩ := size_onFrame hok
        dsimp only at hbuf hsize
        unfold weight
        rw [hbuf]
        unfold kMaxExpansion at hsize ⊢
        omega

theorem weight_feed (h : feed pr chunk fin = (pr', stop)) :
    pr'.weight ≤ pr.weight + kMaxExpansion * chunk.length := by
  unfold feed at h
  split at h
  · cases h
    exact Nat.le_add_right _ _
  have hdrain := weight_drain (pr.recvBuf ++ chunk).length
    { pr with recvBuf := pr.recvBuf ++ chunk, finSeen := pr.finSeen || fin }
  rw [h] at hdrain
  refine hdrain.trans ?_
  unfold weight kMaxExpansion
  dsimp only
  rw [length_append]
  omega

end PendingRequest

theorem length_rest_frames (buf : Bytes) : (frames.rest buf).length ≤ buf.length := by
  induction buf using frames.induction with
  | none buf h => rw [Intake.rest_of_none h]
  | some buf f rest h ih =>
    rw [Intake.rest_of_some h]
    have hlt := payload_consume h
    omega

/-- The buffer of a unidirectional stream keeps within its limit. -/
theorem PendingUni.size_feed (h : feed u chunk = some u') (hsize : u.size ≤ kMaxUniStreamBytes) :
    u'.size ≤ kMaxUniStreamBytes := by
  unfold size at hsize
  unfold feed at h
  split at h
  · cases h
  next hfits =>
    dsimp only at h
    have hbuf : (u.buf ++ chunk).length ≤ kMaxUniStreamBytes := by
      rw [length_append]
      omega
    have hdiscard (u : PendingUni) : u.discard.size ≤ u.size := by
      unfold discard size
      split
      · exact length_rest_frames _
      · exact Nat.zero_le _
    split at h
    · cases h
      exact hbuf
    next v hv =>
      cases h
      refine (hdiscard v).trans ?_
      unfold readType at hv
      split at hv
      · cases hv
        exact hbuf
      · obtain ⟨⟨type, rest⟩, hread, rfl⟩ := Option.map_eq_some_iff.mp hv
        exact Nat.le_trans (Nat.le_of_lt (progresses_consumeLeadingVarint hread)) hbuf

/-! ## Streams that were read from -/

def touched (id : Nat) (past : List (Connection × Action)) : Bool :=
  readBytes id past ≠ [] || ended id past

def readId? : Action → Option Nat
  | .readStream id => some id
  | _ => none

/-- No stream is retired that was read from, and no request stream is longer than the limit. -/
def Sparing (y : Connection × Action) (past : List (Connection × Action)) : Prop :=
  (y.2 = .retire → ∀ e ∈ y.1.closedStreams, touched e.1 past = false) ∧
  ∀ id ∈ readId? y.2, isRequestStream id = true →
    (readBytes id (y :: past)).length ≤ kMaxRequestStreamBytes
  deriving Decidable

variable {env : Quic.Env} {handler : RequestFn} {id k : Nat}
  {past past' : List (Connection × Action)}

theorem readBytes_of_suffix (h : past <:+ past') : readBytes id past <+: readBytes id past' := by
  obtain ⟨later, rfl⟩ := h
  induction later with
  | nil => exact prefix_rfl
  | cons y later ih => exact ih.trans (prefix_append _ _)

theorem touched_of_suffix (h : past <:+ past') (ht : touched id past = true) :
    touched id past' = true := by
  unfold touched at ht ⊢
  rw [Bool.or_eq_true, decide_eq_true_eq] at ht ⊢
  obtain hread | hended := ht
  · refine .inl fun hnil => hread ?_
    have hle : readBytes id past <+: readBytes id past' := readBytes_of_suffix h
    rw [hnil] at hle
    exact prefix_nil.mp hle
  · obtain ⟨y, hy, hread⟩ := any_eq_true.mp hended
    exact .inr (any_eq_true.mpr ⟨y, h.subset hy, hread⟩)

theorem touched_of_read (h : readAt id (c, a) = (bytes, fin)) (hsome : (bytes, fin) ≠ ([], false)) :
    touched id ((c, a) :: past) = true := by
  unfold touched
  rw [readBytes, ended, any_cons, h, Bool.or_eq_true, decide_eq_true_eq, Bool.or_eq_true]
  cases fin with
  | true => exact .inr (.inl rfl)
  | false =>
    refine .inl fun hnil => hsome ?_
    exact congrArg (·, false) (append_eq_nil_iff.mp hnil).2

theorem length_readBytes_le (h : Run.AtEach Sparing past) (hid : isRequestStream id = true) :
    (readBytes id past).length ≤ kMaxRequestStreamBytes := by
  induction past with
  | nil => exact Nat.zero_le _
  | cons y past ih =>
    obtain ⟨hy, hpast⟩ := Run.atEach_cons.mp h
    by_cases hread : y.2 = .readStream id
    · exact hy.2 id (by rw [hread]; rfl) hid
    · rw [readBytes_cons_of_nothing (readAt_of_ne hread y.1)]
      exact ih hpast

def Alive (c : Connection) (id : Nat) : Prop := ∃ s, c.findStream id = some s

/-- Only retiring ends the life of a stream. -/
theorem Alive.perform (h : Alive c id) (env : Quic.Env) (a : Action)
    (hspared : a = .retire → ∀ e ∈ c.closedStreams, e.1 ≠ id) : Alive (c.perform env a) id := by
  refine c.perform_rule env a (fun _ => h) fun _ => ?_
  unfold Alive
  have hstep := c.streamStep_act env a id
  generalize (c.act env a).findStream id = o at hstep
  cases hstep with
  | same => exact h
  | delivered | reset | limited | written | read | sendSide => exact ⟨_, rfl⟩
  | retired hs ht =>
    have hmem : (id, _) ∈ c.closedStreams := mem_filter.mpr ⟨mem_entries.mpr hs, ht⟩
    exact absurd rfl (hspared rfl _ hmem)

theorem Alive.performAll {r : Run} (h : Alive r.conn id) (env : Quic.Env)
    (has : ∀ a ∈ as, a ≠ .retire) : Alive (r.performAll env as).conn id := by
  induction as generalizing r with
  | nil => exact h
  | cons a as ih =>
    have hfirst : Alive (r.perform env a).conn id :=
      Alive.perform h env a fun heq => absurd heq (has a (mem_cons_self))
    exact ih hfirst fun b hb => has b (mem_cons_of_mem _ hb)

/-! ## The server's entries -/

/-- Every entry is that of a stream that is alive and was read from, and is no larger than what was
read comes to. -/
structure Retains (x : Endpoint) : Prop where
  request : ∀ id pr, x.server.pending.find? id = some pr → isRequestStream id = true ∧
    pr.weight ≤ kMaxExpansion * (readBytes id x.run.trace).length
  uni : ∀ id u, x.server.uni.find? id = some u → isUni id = true ∧ u.size ≤ kMaxUniStreamBytes
  alive : ∀ id, (∃ pr, x.server.pending.find? id = some pr) ∨
    (∃ u, x.server.uni.find? id = some u) → Alive x.run.conn id ∧ touched id x.run.trace = true

namespace Retains

variable {x x' : Endpoint}

/-- Time has passed, and there may be new entries. -/
theorem later (h : Retains x)
    (hpending : ∀ id pr, x'.server.pending.find? id = some pr →
      x.server.pending.find? id = some pr ∨ (isRequestStream id = true ∧
        pr.weight ≤ kMaxExpansion * (readBytes id x'.run.trace).length) ∧
        Alive x'.run.conn id ∧ touched id x'.run.trace = true)
    (huni : ∀ id u, x'.server.uni.find? id = some u → x.server.uni.find? id = some u ∨
      (isUni id = true ∧ u.size ≤ kMaxUniStreamBytes) ∧
        Alive x'.run.conn id ∧ touched id x'.run.trace = true)
    (htrace : x.run.trace <:+ x'.run.trace)
    (halive : ∀ id, Alive x.run.conn id → touched id x.run.trace = true → Alive x'.run.conn id) :
    Retains x' where
  request id pr hpr := by
    obtain hold | ⟨hnew, -⟩ := hpending id pr hpr
    · obtain ⟨hid, hweight⟩ := h.request id pr hold
      have hle : readBytes id x.run.trace <+: readBytes id x'.run.trace :=
        readBytes_of_suffix htrace
      exact ⟨hid, hweight.trans (Nat.mul_le_mul_left _ hle.length_le)⟩
    · exact hnew
  uni id u hu := (huni id u hu).elim (h.uni id u) And.left
  alive id hentry := by
    have hold (hlives : Alive x.run.conn id ∧ touched id x.run.trace = true) :
        Alive x'.run.conn id ∧ touched id x'.run.trace = true :=
      ⟨halive id hlives.1 hlives.2, touched_of_suffix htrace hlives.2⟩
    obtain ⟨pr, hpr⟩ | ⟨u, hu⟩ := hentry
    · exact (hpending id pr hpr).elim (fun hpr => hold (h.alive id (.inl ⟨pr, hpr⟩))) And.right
    · exact (huni id u hu).elim (fun hu => hold (h.alive id (.inr ⟨u, hu⟩))) And.right

theorem own (h : Retains x) (env : Quic.Env) (a : Action)
    (hspare : Sparing (x.run.conn, a) x.run.trace) : Retains (x.perform env a) := by
  refine h.later (fun _ _ => .inl) (fun _ _ => .inl) (suffix_cons _ _) fun id hlives htouched => ?_
  refine hlives.perform env a fun hretire e he heq => ?_
  have hnot := hspare.1 hretire e he
  rw [heq, htouched] at hnot
  cases hnot

theorem setUp (h : Retains x) (env : Quic.Env) : Retains (x.initializeServerStreams env) := by
  unfold initializeServerStreams
  split
  · exact h
  let as : List Action := serverStreams.map fun e => .writeStream e.1 e.2 false
  have hkeeps : ∀ a ∈ as, a ≠ .retire := by
    rintro a ha rfl
    obtain ⟨e, -, he⟩ := mem_map.mp ha
    cases he
  exact h.later (fun _ _ => .inl) (fun _ _ => .inl) (trace_suffix_performAll env x.run as)
    fun id hlives _ => hlives.performAll env hkeeps

theorem read (hf : x.run.conn.faulted = false) (hread : x.readOf k ≠ ([], false)) :
    Alive x.run.conn k ∧ readAt k (x.run.conn, .readStream k) = x.readOf k ∧
      touched k ((x.run.conn, .readStream k) :: x.run.trace) = true := by
  have hat : readAt k (x.run.conn, .readStream k) = x.readOf k := if_pos ⟨rfl, hf⟩
  refine ⟨?_, hat, touched_of_read hat hread⟩
  unfold Alive
  cases hs : x.run.conn.findStream k with
  | none => exact absurd (Watching.readOf_none hs) hread
  | some s => exact ⟨s, rfl⟩

theorem storeRequest (h : Retains x) (hf : x.run.conn.faulted = false)
    (hid : isRequestStream k = true) (hread : x.readOf k ≠ ([], false))
    (hweight : pr.weight ≤ (x.pendingAt k).weight + kMaxExpansion * (x.readOf k).1.length)
    (hpending : x'.server.pending = x.server.pending.insert k pr)
    (huni : x'.server.uni = x.server.uni)
    (htrace : (x.run.conn, .readStream k) :: x.run.trace <:+ x'.run.trace)
    (halive : ∀ id, Alive x.run.conn id → Alive x'.run.conn id) : Retains x' := by
  obtain ⟨hlives, hat, htouched⟩ := read hf hread
  have hbefore : (x.pendingAt k).weight ≤ kMaxExpansion * (readBytes k x.run.trace).length := by
    unfold pendingAt
    cases hfind : x.server.pending.find? k with
    | none => exact Nat.zero_le _
    | some pr => exact (h.request k pr hfind).2
  have hlength : (readBytes k x.run.trace).length + (x.readOf k).1.length ≤
      (readBytes k x'.run.trace).length := by
    have hle : readBytes k ((x.run.conn, .readStream k) :: x.run.trace) <+:
        readBytes k x'.run.trace := readBytes_of_suffix htrace
    rw [readBytes, hat] at hle
    have := hle.length_le
    rwa [length_append] at this
  refine h.later (fun id pr' hpr' => ?_) (fun id u hu => .inl (huni ▸ hu))
    ((suffix_cons _ _).trans htrace) fun id hlives _ => halive id hlives
  rw [hpending, find?_insert] at hpr'
  split at hpr'
  next hk =>
    subst hk
    cases hpr'
    refine .inr ⟨⟨hid, hweight.trans ?_⟩, halive id hlives, touched_of_suffix htrace htouched⟩
    calc (x.pendingAt id).weight + kMaxExpansion * (x.readOf id).1.length
        ≤ kMaxExpansion * (readBytes id x.run.trace).length +
            kMaxExpansion * (x.readOf id).1.length := Nat.add_le_add_right hbefore _
      _ = kMaxExpansion * ((readBytes id x.run.trace).length + (x.readOf id).1.length) :=
        (Nat.mul_add ..).symm
      _ ≤ kMaxExpansion * (readBytes id x'.run.trace).length := Nat.mul_le_mul_left _ hlength
  next => exact .inl hpr'

theorem storeUni (h : Retains x) (hf : x.run.conn.faulted = false) (hid : isUni k = true)
    (hread : x.readOf k ≠ ([], false)) (hsize : u.size ≤ kMaxUniStreamBytes)
    (hpending : x'.server.pending = x.server.pending)
    (huni : x'.server.uni = x.server.uni.insert k u)
    (htrace : (x.run.conn, .readStream k) :: x.run.trace <:+ x'.run.trace)
    (halive : ∀ id, Alive x.run.conn id → Alive x'.run.conn id) : Retains x' := by
  obtain ⟨hlives, -, htouched⟩ := read hf hread
  refine h.later (fun id pr hpr => .inl (hpending ▸ hpr)) (fun id u' hu' => ?_)
    ((suffix_cons _ _).trans htrace) fun id hlives _ => halive id hlives
  rw [huni, find?_insert] at hu'
  split at hu'
  next hk =>
    subst hk
    cases hu'
    exact .inr ⟨⟨hid, hsize⟩, halive id hlives, touched_of_suffix htrace htouched⟩
  next => exact .inl hu'

theorem process (h : Retains x) (hf : x.run.conn.faulted = false)
    (hp : Endpoint.Processes env handler x k x') : Retains x' := by
  obtain ⟨as, hrun, has⟩ := hp.run_eq
  have hkeeps : ∀ a ∈ as, a ≠ .retire := by
    rintro a ha rfl
    cases has _ ha
  have halive : ∀ id, Alive x.run.conn id → Alive x'.run.conn id := by
    intro id hlives
    rw [hrun]
    exact hlives.performAll env hkeeps
  have htrace (as : List Action) : (x.run.conn, .readStream k) :: x.run.trace <:+
      (x.run.performAll env (.readStream k :: as)).trace :=
    trace_suffix_performAll env (x.run.perform env (.readStream k)) as
  cases hp with
  | aside as' _ _ huni =>
    obtain rfl | ⟨u, hread, hid, rfl, hu⟩ := huni
    · exact h.later (fun _ _ => .inl) (fun _ _ => .inl) ((suffix_cons _ _).trans (htrace as')) fun id hlives _ =>
        halive id hlives
    have hbefore : (x.uniAt k).size ≤ kMaxUniStreamBytes := by
      unfold uniAt
      cases hfind : x.server.uni.find? k with
      | none => exact Nat.zero_le _
      | some u => exact (h.uni k u hfind).2
    have hsize : u.size ≤ kMaxUniStreamBytes := by
      obtain rfl | hfeed := hu
      · exact hbefore
      · exact PendingUni.size_feed hfeed hbefore
    exact h.storeUni hf hid hread hsize rfl rfl (htrace as') halive
  | stored as' hid hread hfeed =>
    exact h.storeRequest hf hid hread (PendingRequest.weight_feed hfeed) rfl rfl (htrace as') halive
  | @called pr as' hid hread hfeed =>
    have hweight : ({ pr with handled := true } : PendingRequest).weight ≤
        (x.pendingAt k).weight + kMaxExpansion * (x.readOf k).1.length :=
      (PendingRequest.weight_feed hfeed :)
    exact h.storeRequest hf hid hread hweight rfl rfl (htrace as') halive

theorem step (h : Retains x) (s : Endpoint.Step) (hfair : s.Fair x)
    (hspare : Run.AtEach Sparing (x.step env handler s).run.trace) :
    Retains (x.step env handler s) := by
  cases s with
  | own a => exact h.own env a (hspare _ _ suffix_rfl)
  | setUp => exact h.setUp env
  | process k => exact h.process hfair.1 (processes_processStream env handler x k)

end Retains

theorem retains_run (w : Setting) (hspare : Run.AtEach Sparing w.run.run.trace) :
    Retains w.run := by
  refine Endpoint.Reaches.invariant (I := Retains) (fun x s hfair h hQ => h.step s hfair hQ)
    (reaches_ofEvents w.env w.handler _ w.events) ⟨nofun, nofun, fun id hentry => ?_⟩
    hspare
  obtain ⟨_, ⟨⟩⟩ | ⟨_, ⟨⟩⟩ := hentry

/-- **Memory bound.** In a run in which no stream is retired that was read from, and no request
stream is longer than the limit, every entry of the server belongs to a stream that is alive, and
all entries together are within a fixed bound for each of these. -/
theorem retained_le (w : Setting) (hspare : Run.AtEach Sparing w.run.run.trace) :
    (∀ id, (∃ pr, w.run.server.pending.find? id = some pr) ∨
      (∃ u, w.run.server.uni.find? id = some u) → Alive w.run.run.conn id) ∧
    w.run.server.retained ≤ kMaxRetained * w.run.run.conn.streams.entries.length := by
  have h := retains_run w hspare
  refine ⟨fun id hentry => (h.alive id hentry).1, ?_⟩
  have hcount : w.run.server.pending.entries.length + w.run.server.uni.entries.length ≤
      w.run.run.conn.streams.entries.length := by
    refine length_add_length_le (fun id pr u hpr hu => ?_)
      (fun id pr hpr => (h.alive id (.inl ⟨pr, hpr⟩)).1)
      fun id u hu => (h.alive id (.inr ⟨u, hu⟩)).1
    have hrequest := (h.request id pr hpr).1
    rw [isRequestStream, (h.uni id u hu).1] at hrequest
    cases hrequest
  have hpending : w.run.server.pending.sum (fun _ pr => pr.size) ≤
      kMaxRetained * w.run.server.pending.entries.length := by
    refine sum_le_mul fun id pr hpr => ?_
    obtain ⟨hid, hweight⟩ := h.request id pr hpr
    exact pr.size_le_weight.trans
      (hweight.trans (Nat.mul_le_mul_left _ (length_readBytes_le hspare hid)))
  have huni : w.run.server.uni.sum (fun _ u => u.size) ≤
      kMaxRetained * w.run.server.uni.entries.length := by
    refine sum_le_mul fun id u hu => (h.uni id u hu).2.trans ?_
    decide
  calc w.run.server.retained
      ≤ kMaxRetained * w.run.server.pending.entries.length +
          kMaxRetained * w.run.server.uni.entries.length := Nat.add_le_add hpending huni
    _ = kMaxRetained * (w.run.server.pending.entries.length +
          w.run.server.uni.entries.length) := (Nat.mul_add ..).symm
    _ ≤ _ := Nat.mul_le_mul_left _ hcount

theorem retained_le_get :
    (plain [.timer, whole getRequest, .pump]).run.server.retained = 3 ∧
    (∀ id, (∃ pr, (plain [.timer, whole getRequest, .pump]).run.server.pending.find? id = some pr) ∨
      (∃ u, (plain [.timer, whole getRequest, .pump]).run.server.uni.find? id = some u) →
        Alive (plain [.timer, whole getRequest, .pump]).run.run.conn id) ∧
    (plain [.timer, whole getRequest, .pump]).run.server.retained ≤
      kMaxRetained * (plain [.timer, whole getRequest, .pump]).run.run.conn.streams.entries.length :=
  ⟨by decide +kernel, retained_le _ (by decide +kernel)⟩

/-- A request in the packet `pn`, and the acknowledgement of its answer in the packet `sent`. -/
def answered (pn id sent : UInt8) : List Endpoint.Event :=
  [packet pn ([0x09, id] ++ getRequest), .pump, .timer, packet (pn + 1) [0x02, sent, 0, 0, 0],
    .timer]

def answeredRun (n : Nat) : Endpoint :=
  (plain (.timer :: .markPeerAddressValidated :: (answered 0 0 0 ++ answered 2 4 2).take n)).run

/-- The streams of both requests are retired, only those of the server itself are left, and what was
retained for them stays. -/
theorem answered_requests_retained :
    ((answeredRun 5).calls.length = 1 ∧ (answeredRun 10).calls.length = 2) ∧
    ((answeredRun 5).run.conn.streams.entries.map Prod.fst = [3, 7, 11] ∧
      (answeredRun 10).run.conn.streams.entries.map Prod.fst = [3, 7, 11]) ∧
    ((answeredRun 5).server.pending.entries.map Prod.fst = [0] ∧
      (answeredRun 10).server.pending.entries.map Prod.fst = [0, 4]) ∧
    (answeredRun 5).server.retained = 3 ∧ (answeredRun 10).server.retained = 6 := by
  decide +kernel

end Spaznet.Http3
