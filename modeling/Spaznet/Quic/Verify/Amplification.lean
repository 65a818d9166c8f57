import Spaznet.Quic.Verify.DatagramSize

/-!
# Anti-amplification

Until the peer's address is validated, a server may send three times the bytes it has received.
`build_and_send` checks this with an estimate of 1500 bytes before the packet is built, and not at
all for a CONNECTION_CLOSE. The bound holds along a run as long as what is queued fits into the
estimate and no close is pending when the allowance is used up.
-/

namespace Spaznet.Quic

open List Connection

namespace Action

def bytesReceived : Action → Nat
  | .noteDatagram size => size
  | _ => 0

def bytesSent (env : Env) (c : Connection) : Action → Nat
  | .send level =>
    if c.faulted then 0 else ((c.buildAndSend env level).datagram.map length).getD 0
  | _ => 0

/-- Actions that move neither byte counter and leave the validation of the address alone. -/
def uncounted : Action → Bool
  | .noteDatagram _ | .longPacket _ _ | .markValidated | .send _ => false
  | _ => true

theorem bytes_uncounted {a : Action} (h : a.uncounted = true) (env : Env) (c : Connection) :
    a.bytesReceived = 0 ∧ a.bytesSent env c = 0 := by
  cases a with
  | noteDatagram | longPacket | markValidated | send => cases h
  | _ => exact ⟨rfl, rfl⟩

end Action

namespace Connection

variable (c : Connection) (env : Env) (level : EncryptionLevel)

def allowance (c : Connection) : Nat × Nat × Bool :=
  (c.recvBytesTotal, c.sentBytesUnvalidated, c.peerAddressValidated)

theorem allowance_act (h : a.uncounted = true) : (c.act env a).allowance = c.allowance := by
  refine c.act_frame env allowance fun c => ?_
  cases a with
  | frame level f => cases f <;> rfl
  | _ => first | rfl | cases h

theorem sentBytes_collect : (c.collect level).2.sentBytesUnvalidated = c.sentBytesUnvalidated := by
  obtain ⟨_, _, _, _, _, _, _, _, _, _, h⟩ := c.collect_eq level
  rw [h]

theorem sentBytes_buildAndSend (h : c.peerAddressValidated = false) :
    (c.buildAndSend env level).conn.sentBytesUnvalidated = c.sentBytesUnvalidated +
      ((c.buildAndSend env level).datagram.map length).getD 0 := by
  have hcollect := c.sentBytes_collect level
  have hvalidated : (c.collect level).2.peerAddressValidated = false :=
    (congrArg (·.peerAddressValidated) (c.forgetOutbound_collect level) :).trans h
  refine c.sends_rule env level fun res hsends => ?_
  cases hsends with
  | idle | closeLost => rfl
  | drained | lost => exact hcollect
  | close => simp [takePn, setSpace, countSent, h]
  | sent => simp [takePn, setSpace, recordSent, ticked, countSent, hvalidated, hcollect]

end Connection

/-- A send before the address is validated finds no close pending if the allowance is used up, and
otherwise work that the estimate covers. -/
def Action.hasRoom (c : Connection) : Action → Bool
  | .send level => c.peerAddressValidated ||
    if c.amplificationBlocked then c.pendingClose.isNone else c.WorkFits level
  | _ => true

namespace Run

def bytesReceived (trace : List (Connection × Action)) : Nat :=
  (trace.map fun x => x.2.bytesReceived).sum

def bytesSent (env : Env) (trace : List (Connection × Action)) : Nat :=
  (trace.map fun x => x.2.bytesSent env x.1).sum

/-- At every point of the run before the address is validated, at most three times the bytes
received have been sent. -/
def AmplificationBounded (env : Env) : List (Connection × Action) → Prop :=
  AtEach fun x past => (x.1.perform env x.2).peerAddressValidated = false →
    bytesSent env (x :: past) ≤ 3 * bytesReceived (x :: past)

variable {env : Env}

theorem bytesReceived_perform (r : Run) (a : Action) :
    bytesReceived (r.perform env a).trace = a.bytesReceived + bytesReceived r.trace :=
  sum_cons

theorem bytesSent_perform (r : Run) (a : Action) :
    bytesSent env (r.perform env a).trace = a.bytesSent env r.conn + bytesSent env r.trace :=
  sum_cons

/-- While the behaviour is defined and the address not validated, the counters hold the totals of
the run. -/
def Counted (env : Env) (r : Run) : Prop :=
  r.conn.faulted = false → r.conn.peerAddressValidated = false →
    r.conn.recvBytesTotal = bytesReceived r.trace ∧
      r.conn.sentBytesUnvalidated = bytesSent env r.trace

theorem validated_act (c : Connection) (env : Env) (a : Action)
    (h : c.peerAddressValidated = true) : (c.act env a).peerAddressValidated = true := by
  cases hu : a.uncounted with
  | true => exact (congrArg (fun t => t.2.2) (c.allowance_act env hu)).trans h
  | false =>
    cases a with
    | longPacket datagram off =>
      simp only [act]
      split
      · exact h
      · exact h
      · simp [longOpened, h]
      · exact h
    | send level =>
      exact (c.act_frame env (·.peerAddressValidated) fun _ => rfl).trans h
    | markValidated => rfl
    | noteDatagram => exact h
    | _ => cases hu

theorem Counted.perform (h : Counted env r) (a : Action) : Counted env (r.perform env a) := by
  intro hf hv
  have hdef : r.conn.faulted = false := by
    refine Bool.eq_false_iff.2 fun hfault => ?_
    simp [Run.perform, Connection.perform, hfault] at hf
  have hact : r.conn.perform env a = r.conn.act env a := by simp [Connection.perform, hdef]
  have hunval : r.conn.peerAddressValidated = false := by
    refine Bool.eq_false_iff.2 fun hval => ?_
    have hstays := validated_act r.conn env a hval
    rw [← hact] at hstays
    exact Bool.false_ne_true (hv.symm.trans hstays)
  obtain ⟨hrecv, hsent⟩ := h hdef hunval
  rw [bytesReceived_perform, bytesSent_perform, ← hrecv, ← hsent]
  simp only [Run.perform, hact] at hv ⊢
  cases hu : a.uncounted with
  | true =>
    have hsame := r.conn.allowance_act env hu
    obtain ⟨hzero, hzero'⟩ := Action.bytes_uncounted hu env r.conn
    rw [hzero, hzero', Nat.zero_add, Nat.zero_add]
    exact ⟨congrArg (fun t => t.1) hsame, congrArg (fun t => t.2.1) hsame⟩
  | false =>
    cases a with
    | noteDatagram size => exact ⟨Nat.add_comm _ _, (Nat.zero_add _).symm⟩
    | longPacket datagram off =>
      simp only [act, Action.bytesReceived, Action.bytesSent, Nat.zero_add]
      split <;> exact ⟨rfl, rfl⟩
    | markValidated => cases hv
    | send level =>
      have hsame := congrArg (fun c => c.recvBytesTotal)
        (r.conn.forgetOutbound_buildAndSend env level)
      refine ⟨hsame.trans (Nat.zero_add _).symm, ?_⟩
      rw [Action.bytesSent, if_neg (by simp [hdef]), Nat.add_comm]
      exact r.conn.sentBytes_buildAndSend env level hunval
    | _ => cases hu

/-- Where there is room, what goes out stays within the allowance. -/
theorem bytesSent_le_of_hasRoom {c : Connection} (hv : c.peerAddressValidated = false)
    (hle : c.sentBytesUnvalidated ≤ 3 * c.recvBytesTotal)
    (h : Action.hasRoom c (.send level) = true) :
    Action.bytesSent env c (.send level) + c.sentBytesUnvalidated ≤ 3 * c.recvBytesTotal := by
  dsimp only [Action.hasRoom] at h
  rw [hv, Bool.false_or] at h
  dsimp only [Action.bytesSent]
  split
  · rwa [Nat.zero_add]
  cases hd : (c.buildAndSend env level).datagram with
  | none =>
    rw [Option.map_none, Option.getD_none, Nat.zero_add]
    exact hle
  | some d =>
    split at h
    next hblocked =>
      -- nothing is pending, and the estimate keeps the rest back
      have hnone : c.nextFrames level = none := by
        unfold nextFrames
        rw [Option.isNone_iff_eq_none.1 h, hblocked]
        split <;> rfl
      rw [datagram_buildAndSend, hnone] at hd
      cases hd
    next hopen =>
      have hsize := length_datagram_le (of_decide_eq_true h) hd
      simp only [amplificationBlocked, hv, Bool.not_false, Bool.true_and, decide_eq_true_eq] at hopen
      rw [Option.map_some, Option.getD_some]
      omega

theorem Counted.bound_perform (h : Counted env r)
    (hle : r.conn.peerAddressValidated = false →
      bytesSent env r.trace ≤ 3 * bytesReceived r.trace) (ha : a.hasRoom r.conn = true)
    (hv : (r.perform env a).conn.peerAddressValidated = false) :
    bytesSent env (r.perform env a).trace ≤ 3 * bytesReceived (r.perform env a).trace := by
  have hbefore : r.conn.peerAddressValidated = false := by
    refine Bool.eq_false_iff.2 fun hval => ?_
    have hstays : (r.conn.perform env a).peerAddressValidated = true :=
      r.conn.perform_rule env a (fun _ => hval) fun _ => validated_act r.conn env a hval
    exact Bool.false_ne_true (hv.symm.trans hstays)
  have hle := hle hbefore
  have hquiet (hzero : a.bytesSent env r.conn = 0) :
      bytesSent env (r.perform env a).trace ≤ 3 * bytesReceived (r.perform env a).trace := by
    rw [bytesSent_perform, bytesReceived_perform, hzero]
    omega
  cases a with
  | send level =>
    cases hf : r.conn.faulted with
    | true => exact hquiet (if_pos hf)
    | false =>
      obtain ⟨hrecv, hsent⟩ := h hf hbefore
      have hzero : (Action.send level).bytesReceived = 0 := rfl
      rw [bytesSent_perform, bytesReceived_perform, hzero, Nat.zero_add, ← hrecv, ← hsent]
      rw [← hrecv, ← hsent] at hle
      exact bytesSent_le_of_hasRoom hbefore hle ha
  | _ => exact hquiet rfl

/-- **Anti-amplification.** Along every run of a new connection whose sends all have room, the bytes
sent before the address is validated stay within three times the bytes received. -/
theorem amplificationBounded_of_hasRoom (env : Env) (clientDcid clientScid serverScid : Bytes)
    (tp : TransportParameters) (events : List Event)
    (h : ∀ x ∈ (ofEvents env (.create env clientDcid clientScid serverScid tp) events).trace,
      x.2.hasRoom x.1 = true) :
    AmplificationBounded env
      (ofEvents env (.create env clientDcid clientScid serverScid tp) events).trace := by
  let I (r : Run) : Prop := Counted env r ∧ (r.conn.peerAddressValidated = false →
    bytesSent env r.trace ≤ 3 * bytesReceived r.trace)
  have hinit : I ⟨.create env clientDcid clientScid serverScid tp, []⟩ :=
    ⟨fun _ _ => ⟨rfl, rfl⟩, fun _ => Nat.le_refl 0⟩
  refine (reaches_ofEvents _ events).atEach_imp (I := I) (fun r a hr ha => ?_) hinit
    (atEach_step (Q := fun c a => a.hasRoom c = true).2 h)
  have hbound := hr.1.bound_perform hr.2 ha
  exact ⟨hbound, hr.1.perform a, hbound⟩

/-- An Initial packet of 1200 bytes with a PING, and its acknowledgement. -/
def pingRun : Run := ofEvents Env.plain (.create Env.plain [] [] [] {})
  [.datagram ([0xc0, 0, 0, 0, 1, 0, 0, 0, 0x44, 0xa6, 0, 1] ++ replicate 1188 0)]

theorem amplificationBounded_pingRun : bytesSent Env.plain pingRun.trace ≠ 0 ∧
    AmplificationBounded Env.plain pingRun.trace :=
  ⟨by decide +kernel, amplificationBounded_of_hasRoom _ _ _ _ _ _ (by decide +kernel)⟩

/-- An Initial packet of 1200 bytes, answered by TLS with 3600 bytes for the Handshake level. -/
def flightRun : Run := ofEvents (Env.plainFlight (replicate 3600 0))
  (.create (Env.plainFlight (replicate 3600 0)) [] [] [] {})
  [.datagram ([0xc0, 0, 0, 0, 1, 0, 0, 0, 0x44, 0xa6, 0, 6, 0, 1, 1] ++ replicate 1185 0)]

/-- All of it goes out in one packet. -/
theorem crypto_flight_exceeds_allowance :
    ¬ AmplificationBounded (Env.plainFlight (replicate 3600 0)) flightRun.trace := by
  have hval : flightRun.trace.head?.map (fun x =>
      (x.1.perform (Env.plainFlight (replicate 3600 0)) x.2).peerAddressValidated) =
        some false := by decide +kernel
  have hmore : 3 * bytesReceived flightRun.trace <
      bytesSent (Env.plainFlight (replicate 3600 0)) flightRun.trace := by decide +kernel
  intro h
  generalize flightRun.trace = trace at hval hmore h
  cases trace with
  | nil => cases hval
  | cons x past =>
    have := h x past suffix_rfl (Option.some.inj hval)
    omega

end Run

end Spaznet.Quic
