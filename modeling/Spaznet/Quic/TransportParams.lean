import Spaznet.Quic.FrameCodec
import Spaznet.Quic.Tls

/-!
# Transport parameters on the wire

A block is a sequence of identifier, length and value. Numeric parameters hold one varint and are
left out when they have their default; identifiers that are not known are kept as they came. The
decoder writes into the record it is given, so a rejected block may have changed part of it.
-/

namespace Spaznet.Quic

open VarInt

inductive TransportParamId where
  | originalDestinationConnectionId
  | maxIdleTimeout
  | statelessResetToken
  | maxUdpPayloadSize
  | initialMaxData
  | initialMaxStreamDataBidiLocal
  | initialMaxStreamDataBidiRemote
  | initialMaxStreamDataUni
  | initialMaxStreamsBidi
  | initialMaxStreamsUni
  | ackDelayExponent
  | maxAckDelay
  | disableActiveMigration
  | activeConnectionIdLimit
  | initialSourceConnectionId
  | retrySourceConnectionId
  deriving DecidableEq, Repr

namespace TransportParamId

def code : TransportParamId → Nat
  | originalDestinationConnectionId => 0x00
  | maxIdleTimeout => 0x01
  | statelessResetToken => 0x02
  | maxUdpPayloadSize => 0x03
  | initialMaxData => 0x04
  | initialMaxStreamDataBidiLocal => 0x05
  | initialMaxStreamDataBidiRemote => 0x06
  | initialMaxStreamDataUni => 0x07
  | initialMaxStreamsBidi => 0x08
  | initialMaxStreamsUni => 0x09
  | ackDelayExponent => 0x0a
  | maxAckDelay => 0x0b
  | disableActiveMigration => 0x0c
  | activeConnectionIdLimit => 0x0e
  | initialSourceConnectionId => 0x0f
  | retrySourceConnectionId => 0x10

/-- The case of the decoder's switch that an identifier takes; `none` is the default case. -/
def ofCode : Nat → Option TransportParamId
  | 0x00 => some originalDestinationConnectionId
  | 0x01 => some maxIdleTimeout
  | 0x02 => some statelessResetToken
  | 0x03 => some maxUdpPayloadSize
  | 0x04 => some initialMaxData
  | 0x05 => some initialMaxStreamDataBidiLocal
  | 0x06 => some initialMaxStreamDataBidiRemote
  | 0x07 => some initialMaxStreamDataUni
  | 0x08 => some initialMaxStreamsBidi
  | 0x09 => some initialMaxStreamsUni
  | 0x0a => some ackDelayExponent
  | 0x0b => some maxAckDelay
  | 0x0c => some disableActiveMigration
  | 0x0e => some activeConnectionIdLimit
  | 0x0f => some initialSourceConnectionId
  | 0x10 => some retrySourceConnectionId
  | _ => none

end TransportParamId

/-! ## Encoding -/

def appendParam (id : Nat) (value : Bytes) : Option Bytes :=
  concatAll [encode id, encode value.length, some value]

def appendVarintParam (id value : Nat) : Option Bytes := do
  let v ← encode value
  appendParam id v

def appendEmptyParam (id : Nat) : Option Bytes := concatAll [encode id, encode 0]

def encodeOptional (id : TransportParamId) (value : Option Bytes) : Option Bytes :=
  match value with
  | none => some []
  | some value => appendParam id.code value

/-- A numeric parameter, if it differs from its default. -/
def encodeNumeric (id : TransportParamId) (value default : Nat) : Option Bytes :=
  if value ≠ default then appendVarintParam id.code value else some []

def encodeTransportParams (tp : TransportParameters) : Option Bytes := concatAll <|
  [encodeOptional .originalDestinationConnectionId tp.originalDestinationConnectionId,
    encodeOptional .initialSourceConnectionId tp.initialSourceConnectionId,
    encodeOptional .retrySourceConnectionId tp.retrySourceConnectionId,
    encodeOptional .statelessResetToken tp.statelessResetToken,
    encodeNumeric .maxIdleTimeout tp.maxIdleTimeoutMs 0,
    encodeNumeric .maxUdpPayloadSize tp.maxUdpPayloadSize 65527,
    encodeNumeric .initialMaxData tp.initialMaxData 0,
    encodeNumeric .initialMaxStreamDataBidiLocal tp.initialMaxStreamDataBidiLocal 0,
    encodeNumeric .initialMaxStreamDataBidiRemote tp.initialMaxStreamDataBidiRemote 0,
    encodeNumeric .initialMaxStreamDataUni tp.initialMaxStreamDataUni 0,
    encodeNumeric .initialMaxStreamsBidi tp.initialMaxStreamsBidi 0,
    encodeNumeric .initialMaxStreamsUni tp.initialMaxStreamsUni 0,
    encodeNumeric .ackDelayExponent tp.ackDelayExponent 3,
    encodeNumeric .maxAckDelay tp.maxAckDelayMs 25,
    encodeNumeric .activeConnectionIdLimit tp.activeConnectionIdLimit 2,
    if tp.disableActiveMigration then appendEmptyParam TransportParamId.disableActiveMigration.code
    else some []] ++
  tp.unknown.map fun u => appendParam u.id u.value

/-! ## Decoding -/

/-- Read a value that has to be one varint. What was decoded is written even when bytes are left
over. -/
def readVarintValue (value : Bytes) (out : Nat) : Bool × Nat :=
  match decode value 0 with
  | none => (false, out)
  | some (n, off) => (off == value.length, n)

def kMaxCidLen : Nat := 20

def setCid (tp : TransportParameters) (value : Bytes) (set : Bytes → TransportParameters) :
    Bool × TransportParameters :=
  if value.length > kMaxCidLen then (false, tp) else (true, set value)

/-- A numeric parameter whose field holds `out`: `set` stores the new value. -/
def setVarint (value : Bytes) (out : Nat) (set : Nat → TransportParameters) :
    Bool × TransportParameters :=
  ((readVarintValue value out).1, set (readVarintValue value out).2)

/-- The switch of the decoder: store one parameter, or reject it. -/
def setParam (tp : TransportParameters) (id : Nat) (value : Bytes) : Bool × TransportParameters :=
  match TransportParamId.ofCode id with
  | some .originalDestinationConnectionId =>
    setCid tp value fun v => { tp with originalDestinationConnectionId := some v }
  | some .initialSourceConnectionId =>
    setCid tp value fun v => { tp with initialSourceConnectionId := some v }
  | some .retrySourceConnectionId =>
    setCid tp value fun v => { tp with retrySourceConnectionId := some v }
  | some .statelessResetToken =>
    if value.length ≠ 16 then (false, tp)
    else (true, { tp with statelessResetToken := some value })
  | some .maxIdleTimeout =>
    setVarint value tp.maxIdleTimeoutMs fun n => { tp with maxIdleTimeoutMs := n }
  | some .maxUdpPayloadSize =>
    setVarint value tp.maxUdpPayloadSize fun n => { tp with maxUdpPayloadSize := n }
  | some .initialMaxData =>
    setVarint value tp.initialMaxData fun n => { tp with initialMaxData := n }
  | some .initialMaxStreamDataBidiLocal =>
    setVarint value tp.initialMaxStreamDataBidiLocal fun n =>
      { tp with initialMaxStreamDataBidiLocal := n }
  | some .initialMaxStreamDataBidiRemote =>
    setVarint value tp.initialMaxStreamDataBidiRemote fun n =>
      { tp with initialMaxStreamDataBidiRemote := n }
  | some .initialMaxStreamDataUni =>
    setVarint value tp.initialMaxStreamDataUni fun n => { tp with initialMaxStreamDataUni := n }
  | some .initialMaxStreamsBidi =>
    setVarint value tp.initialMaxStreamsBidi fun n => { tp with initialMaxStreamsBidi := n }
  | some .initialMaxStreamsUni =>
    setVarint value tp.initialMaxStreamsUni fun n => { tp with initialMaxStreamsUni := n }
  | some .ackDelayExponent =>
    setVarint value tp.ackDelayExponent fun n => { tp with ackDelayExponent := n }
  | some .maxAckDelay => setVarint value tp.maxAckDelayMs fun n => { tp with maxAckDelayMs := n }
  | some .activeConnectionIdLimit =>
    setVarint value tp.activeConnectionIdLimit fun n => { tp with activeConnectionIdLimit := n }
  | some .disableActiveMigration =>
    if !value.isEmpty then (false, tp) else (true, { tp with disableActiveMigration := true })
  | none => (true, { tp with unknown := tp.unknown ++ [⟨id, value⟩] })

/-- The loop of the decoder; `seen` has the identifiers read so far. A parameter takes at least two
bytes, so the length of the block bounds the number of rounds. -/
def decodeParamsFrom (wire : Bytes) :
    Nat → Nat → List Nat → TransportParameters → Bool × TransportParameters
  | fuel, off, seen, tp =>
    if off < wire.length then
      match fuel, decode wire off with
      | fuel + 1, some (id, off) => match decode wire off with
        | none => (false, tp)
        | some (len, off) =>
          if off + len > wire.length then (false, tp)
          -- RFC 9000 §7.4: a parameter must not appear twice
          else if id ∈ seen then (false, tp)
          else match setParam tp id ((wire.drop off).take len) with
            | (false, tp) => (false, tp)
            | (true, tp) => decodeParamsFrom wire fuel (off + len) (id :: seen) tp
      | _, _ => (false, tp)
    else (true, tp)

def decodeTransportParams (wire : Bytes) (tp : TransportParameters) : Bool × TransportParameters :=
  decodeParamsFrom wire wire.length 0 [] tp

end Spaznet.Quic
