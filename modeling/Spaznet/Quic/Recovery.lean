import Spaznet.Quic.Varint

/-!
# Round-trip estimation and congestion control

Times and durations are nanosecond counts. Integer divisions truncate towards zero, as in C++; the
loss reduction `cwnd * 0.5` is integer halving.
-/

namespace Spaznet.Quic

abbrev TimePoint := Int
abbrev Duration := Int

def milliseconds (n : Nat) : Duration := n * 1000000

def microseconds (n : Nat) : Duration := n * 1000

structure Recovery where
  latestRtt : Duration := 0
  smoothedRtt : Duration := milliseconds 333
  rttvar : Duration := (milliseconds 333).tdiv 2
  minRtt : Duration := 2 ^ 63 - 1
  haveSample : Bool := false
  ptoCount : Nat := 0

namespace Recovery

def kGranularity : Duration := milliseconds 1
def kPacketThreshold : Nat := 3

def onRttSample (r : Recovery) (latest ackDelay : Duration) : Recovery :=
  let r := { r with latestRtt := latest }
  if !r.haveSample then
    { r with minRtt := latest, smoothedRtt := latest, rttvar := latest.tdiv 2, haveSample := true }
  else
    let minRtt := min r.minRtt latest
    let adjusted := if latest ≥ minRtt + ackDelay then latest - ackDelay else latest
    let sm := (7 * r.smoothedRtt + adjusted).tdiv 8
    let diff := if sm > adjusted then sm - adjusted else adjusted - sm
    { r with minRtt, smoothedRtt := sm, rttvar := (3 * r.rttvar + diff).tdiv 4 }

def ptoTimeout (r : Recovery) (maxAckDelay : Duration) : Duration :=
  let base := r.smoothedRtt + max (r.rttvar * 4) kGranularity + maxAckDelay
  if r.ptoCount = 0 then base else base * 2 ^ min r.ptoCount 30

def onPtoFired (r : Recovery) : Recovery := { r with ptoCount := (r.ptoCount + 1) % 2 ^ 32 }

def resetPto (r : Recovery) : Recovery := { r with ptoCount := 0 }

def lossTimeThreshold (r : Recovery) : Duration := (max r.smoothedRtt r.latestRtt * 9).tdiv 8

end Recovery

structure Congestion where
  maxDatagramSize : Nat := 1200
  cwnd : Nat := 1200 * 10
  bytesInFlight : Nat := 0
  ssthresh : Nat := 2 ^ 64 - 1
  recoveryStartTime : Option TimePoint := none

namespace Congestion

def kMinWindowPackets : Nat := 2

def onPacketSent (g : Congestion) (bytes : Nat) : Congestion :=
  { g with bytesInFlight := g.bytesInFlight + bytes }

def inRecovery (g : Congestion) (now : TimePoint) : Bool :=
  match g.recoveryStartTime with
  | none => false
  | some t => now > t

def release (g : Congestion) (bytes : Nat) : Congestion :=
  { g with bytesInFlight := if bytes > g.bytesInFlight then 0 else g.bytesInFlight - bytes }

def onPacketsAcked (g : Congestion) (now : TimePoint) (bytesAcked : Nat) : Congestion :=
  let g := g.release bytesAcked
  if g.inRecovery now then g
  else if g.cwnd < g.ssthresh then { g with cwnd := g.cwnd + bytesAcked }
  else { g with cwnd := g.cwnd + g.maxDatagramSize * bytesAcked / g.cwnd }

def enterRecovery (g : Congestion) (now : TimePoint) : Congestion :=
  let ssthresh := g.cwnd / 2
  { g with ssthresh, cwnd := max ssthresh (g.maxDatagramSize * kMinWindowPackets),
           recoveryStartTime := some now }

def onPacketsLost (g : Congestion) (now : TimePoint) (bytesLost : Nat)
    (largestLostTime : TimePoint) : Congestion :=
  let g := g.release bytesLost
  match g.recoveryStartTime with
  | some t => if largestLostTime ≤ t then g else g.enterRecovery now
  | none => g.enterRecovery now

end Congestion

end Spaznet.Quic
