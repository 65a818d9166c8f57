import Spaznet.Quic.Crypto
import Spaznet.Quic.Recovery

/-!
# The TLS engine and the environment

The handshake itself is OpenSSL's. `TlsConnection` has the buffers and secrets the connection reads
and writes, `ssl` stands for the engine's own state, and `Env.doHandshake` is an arbitrary step of
that engine. The clock is an arbitrary sequence of readings.
-/

namespace Spaznet.Quic

inductive EncryptionLevel where
  | initial
  | earlyData
  | handshake
  | application
  deriving DecidableEq, Repr

/-- The levels a connection sends at, in the order of its loops. -/
def EncryptionLevel.sending : List EncryptionLevel := [.initial, .handshake, .application]

structure UnknownParam where
  id : Nat := 0
  value : Bytes := []
  deriving DecidableEq, Repr

/-- The transport parameters, with the defaults of an absent one. -/
structure TransportParameters where
  originalDestinationConnectionId : Option Bytes := none
  initialSourceConnectionId : Option Bytes := none
  retrySourceConnectionId : Option Bytes := none
  statelessResetToken : Option Bytes := none
  maxIdleTimeoutMs : Nat := 0
  maxUdpPayloadSize : Nat := 65527
  initialMaxData : Nat := 0
  initialMaxStreamDataBidiLocal : Nat := 0
  initialMaxStreamDataBidiRemote : Nat := 0
  initialMaxStreamDataUni : Nat := 0
  initialMaxStreamsBidi : Nat := 0
  initialMaxStreamsUni : Nat := 0
  ackDelayExponent : Nat := 3
  maxAckDelayMs : Nat := 25
  activeConnectionIdLimit : Nat := 2
  disableActiveMigration : Bool := false
  unknown : List UnknownParam := []
  deriving DecidableEq, Repr

inductive TlsState where
  | handshaking
  | established
  | failed
  deriving DecidableEq, Repr

structure TlsConnection where
  state : TlsState := .handshaking
  inData : EncryptionLevel → Bytes := fun _ => []
  outCrypto : EncryptionLevel → Bytes := fun _ => []
  readSecret : EncryptionLevel → Bytes := fun _ => []
  writeSecret : EncryptionLevel → Bytes := fun _ => []
  negotiatedAead : Aead := .aes128Gcm
  peerTransportParams : TransportParameters := {}
  ssl : Nat := 0

structure Env extends Crypto where
  doHandshake : TlsConnection → TlsConnection
  clock : Nat → TimePoint

namespace TlsConnection

def deliverCrypto (t : TlsConnection) (level : EncryptionLevel) (data : Bytes) : TlsConnection :=
  { t with inData := fun l => if l = level then t.inData l ++ data else t.inData l }

def clearOut (t : TlsConnection) (level : EncryptionLevel) : TlsConnection :=
  { t with outCrypto := fun l => if l = level then [] else t.outCrypto l }

def advance (env : Env) (t : TlsConnection) : TlsConnection :=
  if t.state = .failed then t else env.doHandshake t

end TlsConnection

end Spaznet.Quic
