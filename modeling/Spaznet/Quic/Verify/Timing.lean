import Spaznet.Quic.TransportParams
import Spaznet.Quic.Connection.Plain

/-!
# Timing arithmetic of 64 bits

The connection model computes durations exactly. Here the same computations are written as the
machine does them, with 64-bit operands and the peer's parameters as they come off the wire, and
compared with the exact ones.
-/

namespace Spaznet.Quic

open Option Word64 Recovery

/-- A duration of `n` units of `unit` nanoseconds: `n` becomes signed, and is then multiplied. -/
def machineDuration (n unit : Nat) : Option Duration := signed (wrap n * unit)

namespace Connection

/-! ## What the machine computes -/

/-- `f.ack_delay << ack_delay_exponent`, undefined when the count is 64 or more. -/
def machineShift (c : Connection) (ackDelay : Nat) : Option Nat :=
  if c.peerTp.ackDelayExponent < 64 then some (ackDelay * 2 ^ c.peerTp.ackDelayExponent % 2 ^ 64)
  else none

/-- `max_ack_delay_ms * 1000U`. -/
def machineCapUs (c : Connection) : Nat := c.peerTp.maxAckDelayMs * 1000 % 2 ^ 64

/-- The delay that `on_ack_frame` takes off an RTT sample. -/
def machineAckDelay (c : Connection) (ackDelay : Nat) : Option Duration := do
  let scaled ← c.machineShift ackDelay
  machineDuration
    (if c.machineCapUs > 0 ∧ scaled > c.machineCapUs then c.machineCapUs else scaled) 1000

/-- `max_ack_delay` of `check_pto`. -/
def machineMaxAckDelay (c : Connection) : Option Duration :=
  machineDuration c.peerTp.maxAckDelayMs 1000000

/-- `pto_timeout(max_ack_delay)`. The shift of a signed value keeps its low 64 bits. -/
def machinePto (c : Connection) : Option Duration := do
  let maxAckDelay ← c.machineMaxAckDelay
  let var ← signed (c.recovery.rttvar * 4)
  let base ← signed (c.recovery.smoothedRtt + max var kGranularity)
  let base ← signed (base + maxAckDelay)
  if c.recovery.ptoCount = 0 then some base
  else some (wrap (base * 2 ^ min c.recovery.ptoCount 30))

/-- The right-hand side of the comparison in `check_idle_timeout`. -/
def machineIdle (c : Connection) : Option Duration := machineDuration c.effectiveIdleMs 1000000

/-! ## The exact values -/

def exactScaled (c : Connection) (ackDelay : Nat) : Nat := ackDelay * 2 ^ c.peerTp.ackDelayExponent

def exactCapUs (c : Connection) : Nat := c.peerTp.maxAckDelayMs * 1000

/-- The delay in microseconds, capped unless the cap is zero. -/
def exactAckDelayUs (c : Connection) (ackDelay : Nat) : Nat :=
  if c.exactCapUs > 0 ∧ c.exactScaled ackDelay > c.exactCapUs then c.exactCapUs
  else c.exactScaled ackDelay

/-- Every timing computation for an ACK frame with this delay is defined and exact. -/
structure TimingExact (c : Connection) (ackDelay : Nat) : Prop where
  shift : c.machineShift ackDelay = some (c.exactScaled ackDelay)
  cap : c.machineCapUs = c.exactCapUs
  ackDelay : c.machineAckDelay ackDelay = some (microseconds (c.exactAckDelayUs ackDelay))
  maxAckDelay : c.machineMaxAckDelay = some (milliseconds c.peerTp.maxAckDelayMs)
  pto : c.machinePto = some (c.recovery.ptoTimeout (milliseconds c.peerTp.maxAckDelayMs))
  idle : c.machineIdle = some (milliseconds c.effectiveIdleMs)

def ptoBase (c : Connection) : Duration :=
  c.recovery.smoothedRtt + max (c.recovery.rttvar * 4) kGranularity +
    milliseconds c.peerTp.maxAckDelayMs

/-- What the peer's parameters, the delay in the frame and the RTT estimates have to satisfy. -/
structure TimesFit (c : Connection) (ackDelay : Nat) : Prop where
  exponent : c.peerTp.ackDelayExponent < 64
  scaled : c.exactScaled ackDelay < 2 ^ 64
  maxAckDelay : c.peerTp.maxAckDelayMs * 1000000 < 2 ^ 63
  /-- Without a cap the scaled delay itself is converted. -/
  uncapped : c.peerTp.maxAckDelayMs = 0 → c.exactScaled ackDelay * 1000 < 2 ^ 63
  rttvar : Word64.Fits (c.recovery.rttvar * 4)
  rtt : Word64.Fits (c.recovery.smoothedRtt + max (c.recovery.rttvar * 4) kGranularity)
  base : Word64.Fits c.ptoBase
  backoff : c.recovery.ptoCount ≠ 0 → Word64.Fits (c.ptoBase * 2 ^ min c.recovery.ptoCount 30)
  idle : c.effectiveIdleMs * 1000000 < 2 ^ 63

/-! ## When they agree -/

theorem machineDuration_eq (hunit : 0 < unit) (hd : d = ((n * unit : Nat) : Int)) :
    machineDuration n unit = some d ↔ n * unit < 2 ^ 63 := by
  have hle : n ≤ n * unit := Nat.le_mul_of_pos_right n hunit
  have hcast : ((n * unit : Nat) : Int) = (n : Int) * unit := Nat.cast_mul n unit
  rw [hd, machineDuration, signed_eq_some]
  constructor
  · rintro ⟨hfit, heq⟩
    have := hfit.2
    omega
  · intro h
    have hwrap : wrap n = n := wrap_eq_self.mpr ⟨by omega, by omega⟩
    rw [hwrap]
    exact ⟨⟨by omega, by omega⟩, rfl⟩

section
variable {c : Connection} {ackDelay : Nat}

theorem machineShift_eq :
    c.machineShift ackDelay = some (c.exactScaled ackDelay) ↔
      c.peerTp.ackDelayExponent < 64 ∧ c.exactScaled ackDelay < 2 ^ 64 := by
  unfold machineShift exactScaled
  split
  · rename_i h
    rw [Option.some.injEq, Nat.mod_eq_iff_lt (by decide)]
    exact (and_iff_right h).symm
  · rename_i h
    simp [h]

theorem machineMaxAckDelay_eq :
    c.machineMaxAckDelay = some (milliseconds c.peerTp.maxAckDelayMs) ↔
      c.peerTp.maxAckDelayMs * 1000000 < 2 ^ 63 :=
  machineDuration_eq (by decide) (by simp [milliseconds])

theorem machineIdle_eq :
    c.machineIdle = some (milliseconds c.effectiveIdleMs) ↔ c.effectiveIdleMs * 1000000 < 2 ^ 63 :=
  machineDuration_eq (by decide) (by simp [milliseconds])

theorem machineCapUs_eq (h : c.peerTp.maxAckDelayMs * 1000000 < 2 ^ 63) :
    c.machineCapUs = c.exactCapUs := by
  have hle : c.peerTp.maxAckDelayMs * 1000 ≤ c.peerTp.maxAckDelayMs * 1000000 :=
    Nat.mul_le_mul_left _ (by decide)
  exact Nat.mod_eq_of_lt ((hle.trans_lt h).trans (by decide))

/-- With an exact shift and an exact cap, only an uncapped delay can be too large. -/
theorem machineAckDelay_eq (hshift : c.machineShift ackDelay = some (c.exactScaled ackDelay))
    (hmax : c.peerTp.maxAckDelayMs * 1000000 < 2 ^ 63) :
    c.machineAckDelay ackDelay = some (microseconds (c.exactAckDelayUs ackDelay)) ↔
      (c.peerTp.maxAckDelayMs = 0 → c.exactScaled ackDelay * 1000 < 2 ^ 63) := by
  have heq : c.machineAckDelay ackDelay = machineDuration (c.exactAckDelayUs ackDelay) 1000 := by
    rw [machineAckDelay, hshift, machineCapUs_eq hmax, bind_eq_bind, bind_some,
      exactAckDelayUs]
  have hduration : machineDuration (c.exactAckDelayUs ackDelay) 1000 =
      some (microseconds (c.exactAckDelayUs ackDelay)) ↔
      c.exactAckDelayUs ackDelay * 1000 < 2 ^ 63 :=
    machineDuration_eq (by decide) (by simp [microseconds])
  have hcap : c.exactCapUs * 1000 < 2 ^ 63 := by
    simpa only [exactCapUs, Nat.mul_assoc] using hmax
  rw [heq, hduration, exactAckDelayUs]
  by_cases hzero : c.peerTp.maxAckDelayMs = 0
  · have hnone : c.exactCapUs = 0 := by rw [exactCapUs, hzero]
    simp only [hnone, hzero, lt_self_iff_false, false_and, if_false, true_imp_iff]
  have hpos : 0 < c.exactCapUs := Nat.mul_pos (Nat.pos_of_ne_zero hzero) (by decide)
  refine iff_of_true ?_ fun h => absurd h hzero
  split_ifs with hover
  · exact hcap
  · have hle : c.exactScaled ackDelay ≤ c.exactCapUs := Nat.le_of_not_lt fun h => hover ⟨hpos, h⟩
    exact (Nat.mul_le_mul_right 1000 hle).trans_lt hcap

theorem machinePto_eq (hmax : c.peerTp.maxAckDelayMs * 1000000 < 2 ^ 63) :
    c.machinePto = some (c.recovery.ptoTimeout (milliseconds c.peerTp.maxAckDelayMs)) ↔
      Word64.Fits (c.recovery.rttvar * 4) ∧
      Word64.Fits (c.recovery.smoothedRtt +
        max (c.recovery.rttvar * 4) kGranularity) ∧
      Word64.Fits c.ptoBase ∧
      (c.recovery.ptoCount ≠ 0 →
        Word64.Fits (c.ptoBase * 2 ^ min c.recovery.ptoCount 30)) := by
  simp only [machinePto, machineMaxAckDelay_eq.mpr hmax, bind_eq_bind, bind_some,
    bind_eq_some_iff, signed_eq_some]
  constructor
  · rintro ⟨_, ⟨hvar, rfl⟩, _, ⟨hrtt, rfl⟩, _, ⟨hbase, rfl⟩, h⟩
    refine ⟨hvar, hrtt, hbase, fun hcount => ?_⟩
    rw [if_neg hcount, ptoTimeout, if_neg hcount] at h
    exact wrap_eq_self.mp (Option.some.inj h)
  · rintro ⟨hvar, hrtt, hbase, hback⟩
    refine ⟨_, ⟨hvar, rfl⟩, _, ⟨hrtt, rfl⟩, _, ⟨hbase, rfl⟩, ?_⟩
    rw [ptoTimeout]
    split_ifs with hcount
    · rfl
    · exact congrArg some (wrap_eq_self.mpr (hback hcount))

end

/-- In every state and for every ACK frame, the timing computations are defined and exact if and
only if the peer's exponent is below 64 and the scaled values, the RTT estimates and the timeouts
fit their types. -/
theorem timingExact_iff (c : Connection) (f : AckFrame) :
    TimingExact c f.ackDelay ↔ TimesFit c f.ackDelay := by
  constructor
  · intro h
    obtain ⟨hexp, hscaled⟩ := machineShift_eq.mp h.shift
    have hmax := machineMaxAckDelay_eq.mp h.maxAckDelay
    obtain ⟨hvar, hrtt, hbase, hback⟩ := (machinePto_eq hmax).mp h.pto
    exact ⟨hexp, hscaled, hmax, (machineAckDelay_eq h.shift hmax).mp h.ackDelay, hvar, hrtt, hbase,
      hback, machineIdle_eq.mp h.idle⟩
  · intro h
    have hshift := machineShift_eq.mpr ⟨h.exponent, h.scaled⟩
    exact ⟨hshift, machineCapUs_eq h.maxAckDelay,
      (machineAckDelay_eq hshift h.maxAckDelay).mpr h.uncapped,
      machineMaxAckDelay_eq.mpr h.maxAckDelay,
      (machinePto_eq h.maxAckDelay).mpr ⟨h.rttvar, h.rtt, h.base, h.backoff⟩,
      machineIdle_eq.mpr h.idle⟩

/-- A block with an exponent of 64, and the largest varint as both delay and idle timeout. -/
def hugeTimes : Bytes :=
  [0x0a, 2, 0x40, 0x40] ++ ([0x0b, 8] ++ List.replicate 8 0xff) ++
    ([0x01, 8] ++ List.replicate 8 0xff)

/-- The decoder accepts the block. After the handshake the shift is undefined, the cap is not the
cap, and neither the delay nor the idle timeout can be converted to nanoseconds. -/
theorem not_timingExact_hugeTimes :
    (decodeTransportParams hugeTimes {}).1 = true ∧
    let env := Env.plainEstablished (decodeTransportParams hugeTimes {}).2
    let c := (Run.ofEvents env (.create env [] [] [] {}) [.timer]).conn
    c.machineShift 1 = none ∧ c.machineCapUs ≠ c.exactCapUs ∧ c.machineMaxAckDelay = none ∧
      c.machineIdle = none ∧ ¬TimingExact c 1 := by
  refine ⟨by decide +kernel, ?_⟩
  intro env c
  have hshift : c.machineShift 1 = none := by decide +kernel
  refine ⟨hshift, by decide +kernel, by decide +kernel, by decide +kernel, fun h => ?_⟩
  have := h.shift
  rw [hshift] at this
  cases this

end Connection

end Spaznet.Quic
