import Spaznet.Quic.Connection.Plain
import Spaznet.Quic.Connection.Settle

/-!
# Bytes in flight

Congestion control is told of the ack-eliciting packets that are sent and of those that are declared
lost, but of every packet that is acknowledged. A packet that carries only an ACK frame is kept in
`sent_` like any other; when the peer acknowledges it, bytes are taken out of flight that were never
put in. As long as that does not happen, the count is right.
-/

namespace Spaznet.Quic

open Function

namespace Connection

def elicitingBytes (r : SentRecord) : Nat := if r.ackEliciting then r.bytes else 0

def bytesOut (sent : EncryptionLevel → OrdMap SentRecord) : Nat :=
  (EncryptionLevel.all.map fun level => (sent level).sum fun _ r => elicitingBytes r).sum

/-- Congestion control counts the ack-eliciting packets in flight. -/
def FlightCounted (c : Connection) : Prop := c.congestion.bytesInFlight = bytesOut c.sent

theorem bytesOut_update (sent : EncryptionLevel → OrdMap SentRecord) (level : EncryptionLevel)
    (m : OrdMap SentRecord) : bytesOut (update sent level m) +
      (sent level).sum (fun _ r => elicitingBytes r) =
        bytesOut sent + m.sum fun _ r => elicitingBytes r := by
  cases level <;> simp [bytesOut, EncryptionLevel.all] <;> omega

theorem bytesOut_erase {sent : EncryptionLevel → OrdMap SentRecord} {level : EncryptionLevel}
    {e : Nat × SentRecord} (h : e ∈ (sent level).entries) : bytesOut sent =
      elicitingBytes e.2 + bytesOut (update sent level ((sent level).erase e.1)) := by
  have hupdate := bytesOut_update sent level ((sent level).erase e.1)
  have herase := OrdMap.sum_erase (fun _ r => elicitingBytes r) h
  omega

theorem bytesOut_emplace {sent : EncryptionLevel → OrdMap SentRecord} {level : EncryptionLevel}
    (h : (sent level).find? pn = none) (r : SentRecord) :
    bytesOut (update sent level ((sent level).emplace pn r)) =
      elicitingBytes r + bytesOut sent := by
  have hupdate := bytesOut_update sent level ((sent level).emplace pn r)
  have hemplace := OrdMap.sum_emplace (fun _ r => elicitingBytes r) h r
  omega

/-! ## Settling -/

theorem congestion_updateStream (c : Connection) (streamId : Nat) (f : Stream → Option Stream) :
    (c.updateStream streamId f).congestion = c.congestion := by
  unfold updateStream
  repeat' split
  all_goals rfl

end Connection

namespace Congestion

theorem bytesInFlight_release (g : Congestion) (bytes : Nat) :
    (g.release bytes).bytesInFlight = g.bytesInFlight - bytes := by
  unfold release
  dsimp only
  split
  · omega
  · rfl

section
variable (g : Congestion) (now : TimePoint) (bytes : Nat)

theorem bytesInFlight_onPacketsAcked :
    (g.onPacketsAcked now bytes).bytesInFlight = g.bytesInFlight - bytes := by
  rw [← bytesInFlight_release]
  unfold onPacketsAcked
  dsimp only
  repeat' split
  all_goals rfl

theorem bytesInFlight_onPacketsLost (largestLostTime : TimePoint) :
    (g.onPacketsLost now bytes largestLostTime).bytesInFlight = g.bytesInFlight - bytes := by
  rw [← bytesInFlight_release]
  unfold onPacketsLost
  dsimp only
  repeat' split
  all_goals rfl

end

end Congestion

namespace Connection

section
variable (c : Connection) (env : Env) (level : EncryptionLevel) (e : Nat × SentRecord)

theorem bytesInFlight_ackEntry : (ackEntry env level c e).congestion.bytesInFlight =
      c.congestion.bytesInFlight - e.2.bytes := by
  have hstreams := Machine.foldl_frame (f := streamAcked)
    (fun c sf => congestion_updateStream c sf.streamId _) c e.2.streams
  rw [← hstreams]
  exact Congestion.bytesInFlight_onPacketsAcked ..

theorem bytesInFlight_loseEntry : (loseEntry env level c e).congestion.bytesInFlight =
      c.congestion.bytesInFlight - elicitingBytes e.2 := by
  have hstreams := Machine.foldl_frame (f := streamLost)
    (fun c sf => congestion_updateStream c sf.streamId _) c e.2.streams
  rw [← hstreams]
  unfold loseEntry declareLost elicitingBytes
  split
  · exact Congestion.bytesInFlight_onPacketsLost ..
  · rfl

end

/-- Losing any packet and acknowledging an ack-eliciting one keep the count. -/
theorem settles_flightCounted (env : Env) :
    Settles env FlightCounted fun e => e.2.ackEliciting = true where
  ack {c level e} h he heliciting := by
    have hout := bytesOut_erase he
    unfold FlightCounted at h ⊢
    rw [bytesInFlight_ackEntry, sent_ackEntry, h, hout, elicitingBytes, if_pos heliciting,
      Nat.add_sub_cancel_left]
  lose {c level e} h he := by
    have hout := bytesOut_erase he
    unfold FlightCounted at h ⊢
    rw [bytesInFlight_loseEntry, sent_loseEntry, h, hout, Nat.add_sub_cancel_left]
  note _ _ _ h := h

/-! ## Sending and the rest -/

theorem sent_congestion_collect (c : Connection) (level : EncryptionLevel) :
    (c.collect level).2.sent = c.sent ∧ (c.collect level).2.congestion = c.congestion := by
  obtain ⟨_, _, _, _, _, _, _, _, _, _, h⟩ := c.collect_eq level
  rw [h]
  exact ⟨rfl, rfl⟩

theorem FlightCounted.recordSent (h : FlightCounted c) (hfresh : PnFresh c)
    (env : Env) (level : EncryptionLevel) (o : Outgoing) (pkt : Bytes) :
    FlightCounted (((c.takePn level).recordSent env level o (c.nextPn level) pkt).countSent
      pkt.length) := by
  have hout := bytesOut_emplace (hfresh.find?_nextPn level)
    { ackEliciting := o.ackEliciting, bytes := pkt.length, sentAt := (c.takePn level).now env
      crypto := o.crypto, streams := o.streams }
  refine Eq.trans ?_ hout.symm
  unfold elicitingBytes
  show Congestion.bytesInFlight (if o.ackEliciting then _ else _) = _
  split
  · show c.congestion.bytesInFlight + pkt.length = pkt.length + bytesOut c.sent
    rw [h, Nat.add_comm]
  · exact h.trans (Nat.zero_add _).symm

theorem FlightCounted.buildAndSend (h : FlightCounted c) (hfresh : PnFresh c)
    (env : Env) (level : EncryptionLevel) : FlightCounted (c.buildAndSend env level).conn := by
  obtain ⟨hsent, hcong⟩ := c.sent_congestion_collect level
  have hcollect : FlightCounted (c.collect level).2 := by
    unfold FlightCounted
    rw [hsent, hcong]
    exact h
  have hfresh' : PnFresh (c.collect level).2 :=
    hfresh.of_sentLe (fun l pn r hr => by rwa [hsent] at hr)
      (nextPn_of_cores (c.collect_frame level).2)
  refine c.sends_rule env level fun res hsends => ?_
  cases hsends with
  | idle | closeLost | close => exact h
  | drained | lost => exact hcollect
  | sent => exact hcollect.recordSent hfresh' env level _ _

/-- An ACK frame covers no packet in flight that is not ack-eliciting. -/
def AcksEliciting (c : Connection) (a : Action) : Prop :=
  ∀ x ∈ a.ack?, ∀ e ∈ (c.sent x.1).entries, x.2.covers e.1 = true → e.2.ackEliciting = true
  deriving Decidable

theorem FlightCounted.perform (h : FlightCounted c) (hfresh : PnFresh c)
    (env : Env) (ha : AcksEliciting c a) : FlightCounted (c.perform env a) := by
  refine c.perform_rule env a (fun _ => h) fun _ => ?_
  rcases a.send_or_ne with ⟨level, rfl⟩ | hs
  · exact h.buildAndSend hfresh env level
  cases hack : a.ack? with
  | some x =>
    rw [ack?_eq_some hack]
    exact (settles_flightCounted env).onAckFrame h x.1 x.2 (ha x hack)
  | none =>
    by_cases hpto : a = .checkPto
    · rw [hpto]
      exact (settles_flightCounted env).checkPto h
    obtain ⟨hsent, hcong⟩ := c.sent_congestion_act env hs hack hpto
    unfold FlightCounted
    rw [hsent, hcong]
    exact h

end Connection

namespace Run

open Connection

/-- **Bytes in flight.** In every run of a new connection whose ACK frames cover no packet in flight
that carries only an ACK, congestion control counts exactly the ack-eliciting packets in flight. -/
theorem bytes_in_flight (env : Env) (clientDcid clientScid serverScid : Bytes)
    (tp : TransportParameters) (as : List Action) :
    let r := performAll env ⟨.create env clientDcid clientScid serverScid tp, []⟩ as
    (∀ x ∈ r.trace, x.1.AcksEliciting x.2) →
      r.conn.congestion.bytesInFlight = bytesOut r.conn.sent := by
  intro r hacks
  have hstep (r : Run) (a : Action) (h : FlightCounted r.conn ∧ PnFresh r.conn)
      (ha : r.conn.AcksEliciting a) :
      FlightCounted (r.perform env a).conn ∧ PnFresh (r.perform env a).conn :=
    ⟨h.1.perform h.2 env ha, h.2.perform env a⟩
  have hinit : FlightCounted (.create env clientDcid clientScid serverScid tp) ∧
      PnFresh (.create env clientDcid clientScid serverScid tp) := ⟨rfl, nofun⟩
  exact ((reaches_performAll _ as).invariant (I := fun r => FlightCounted r.conn ∧ PnFresh r.conn)
    (P := fun c a => c.AcksEliciting a) hstep hinit hacks).1

/-- HANDSHAKE_DONE and a packet with only an ACK are sent; the first is acknowledged. -/
def elicitingAcked : List Action :=
  [.markValidated, .advanceTls, .installKeys, .send .application, .received .application 0,
    .send .application, .frame .application (.ack { largestAcked := 0 })]

theorem bytes_in_flight_elicitingAcked :
    let env := Env.plainEstablished {}
    let r := performAll env ⟨.create env [] [] [] {}, []⟩ elicitingAcked
    (r.conn.sent .application).entries.map (·.1) = [1] ∧
      r.conn.congestion.bytesInFlight = bytesOut r.conn.sent :=
  ⟨by decide +kernel, bytes_in_flight _ [] [] [] {} elicitingAcked (by decide +kernel)⟩

/-- HANDSHAKE_DONE goes out in packet 0 and the ACK of a PING in packet 1; the peer acknowledges
packet 1. -/
def ackAcknowledged : List Event :=
  [.markPeerAddressValidated, .timer,
    .datagram ([0x40, 0, 0x01, 0, 0, 0] ++ List.replicate 16 0), .timer,
    .datagram ([0x40, 1, 0x02, 1, 0, 0, 0] ++ List.replicate 16 0)]

theorem not_bytes_in_flight : ¬ ∀ (env : Env) (clientDcid clientScid serverScid : Bytes)
    (tp : TransportParameters) (events : List Event),
    let r := ofEvents env (.create env clientDcid clientScid serverScid tp) events
    r.conn.congestion.bytesInFlight = bytesOut r.conn.sent := by
  intro h
  have hrun := h (Env.plainEstablished {}) [] [] [] {} ackAcknowledged
  revert hrun
  decide +kernel

end Run

end Spaznet.Quic
