import Spaznet.Quic.Varint

/-!
# QUIC frames

The frame types, the parser and the encoder. `parseFrame` works on a buffer and an offset, as the
code does; on failure it puts the offset back to where the frame started. `encodeFrame` fails
exactly where `VarInt::append` throws.
-/

namespace Spaznet.Quic

open VarInt

/-! ## Frame types -/

structure AckRange where
  gap : Nat := 0
  length : Nat := 0
  deriving DecidableEq, Repr

structure AckFrame where
  largestAcked : Nat := 0
  ackDelay : Nat := 0
  firstRange : Nat := 0
  ranges : List AckRange := []
  ecn : Bool := false
  ect0 : Nat := 0
  ect1 : Nat := 0
  ce : Nat := 0
  deriving DecidableEq, Repr

structure ResetStreamFrame where
  streamId : Nat := 0
  appError : Nat := 0
  finalSize : Nat := 0
  deriving DecidableEq, Repr

structure CryptoFrame where
  offset : Nat := 0
  data : Bytes := []
  deriving DecidableEq, Repr

structure StreamFrame where
  streamId : Nat := 0
  offset : Nat := 0
  hasLength : Bool := false
  fin : Bool := false
  data : Bytes := []
  deriving DecidableEq, Repr

structure NewConnectionIdFrame where
  sequenceNumber : Nat := 0
  retirePriorTo : Nat := 0
  connectionId : Bytes := []
  statelessResetToken : Bytes := []
  deriving DecidableEq, Repr

structure ConnectionCloseFrame where
  /-- The application variant (0x1d) rather than the transport one (0x1c). -/
  application : Bool := false
  errorCode : Nat := 0
  frameType : Nat := 0
  reason : Bytes := []
  deriving DecidableEq, Repr

inductive Frame where
  | padding (count : Nat)
  | ping
  | ack (f : AckFrame)
  | resetStream (f : ResetStreamFrame)
  | stopSending (streamId appError : Nat)
  | crypto (f : CryptoFrame)
  | newToken (token : Bytes)
  | stream (f : StreamFrame)
  | maxData (maximum : Nat)
  | maxStreamData (streamId maximum : Nat)
  | maxStreams (bidi : Bool) (maximum : Nat)
  | dataBlocked (limit : Nat)
  | streamDataBlocked (streamId limit : Nat)
  | streamsBlocked (bidi : Bool) (limit : Nat)
  | newConnectionId (f : NewConnectionIdFrame)
  | retireConnectionId (sequenceNumber : Nat)
  | pathChallenge (data : Bytes)
  | pathResponse (data : Bytes)
  | connectionClose (f : ConnectionCloseFrame)
  | handshakeDone
  deriving DecidableEq, Repr

namespace FrameType

def crypto : Nat := 0x06
def stream : Nat := 0x08
def resetStream : Nat := 0x04

end FrameType

/-! ## Parsing -/

abbrev readVarint : Bytes → Nat → Option (Nat × Nat) := decode

def readBytes (buf : Bytes) (off n : Nat) : Option (Bytes × Nat) :=
  if off + n > buf.length then none else some ((buf.drop off).take n, off + n)

def readRanges (buf : Bytes) : Nat → Nat → Option (List AckRange × Nat)
  | 0, off => some ([], off)
  | n + 1, off => do
    let (gap, off) ← readVarint buf off
    let (length, off) ← readVarint buf off
    let (rest, off) ← readRanges buf n off
    some ({ gap, length } :: rest, off)

def parseAck (buf : Bytes) (off : Nat) (ecn : Bool) : Option (Frame × Nat) := do
  let (largestAcked, off) ← readVarint buf off
  let (ackDelay, off) ← readVarint buf off
  let (ackRangeCount, off) ← readVarint buf off
  let (firstRange, off) ← readVarint buf off
  -- a range takes at least two bytes, so a larger count cannot be satisfied
  if ackRangeCount > (buf.length - off) / 2 then none
  else
    let (ranges, off) ← readRanges buf ackRangeCount off
    if ecn then
      let (ect0, off) ← readVarint buf off
      let (ect1, off) ← readVarint buf off
      let (ce, off) ← readVarint buf off
      some (.ack { largestAcked, ackDelay, firstRange, ranges, ecn, ect0, ect1, ce }, off)
    else some (.ack { largestAcked, ackDelay, firstRange, ranges, ecn }, off)

def parseResetStream (buf : Bytes) (off : Nat) : Option (Frame × Nat) := do
  let (streamId, off) ← readVarint buf off
  let (appError, off) ← readVarint buf off
  let (finalSize, off) ← readVarint buf off
  some (.resetStream { streamId, appError, finalSize }, off)

def parseCrypto (buf : Bytes) (off : Nat) : Option (Frame × Nat) := do
  let (offset, off) ← readVarint buf off
  let (length, off) ← readVarint buf off
  let (data, off) ← readBytes buf off length
  some (.crypto { offset, data }, off)

def parseStream (buf : Bytes) (off typeRaw : Nat) : Option (Frame × Nat) := do
  let flags := typeRaw % 256
  let fin := flags &&& 0x01 != 0
  let hasOff := flags &&& 0x04 != 0
  let hasLength := flags &&& 0x02 != 0
  let (streamId, off) ← readVarint buf off
  let (offset, off) ← if hasOff then readVarint buf off else some (0, off)
  -- without a Length field the data extends to the end of the payload
  let (dataLen, off) ← if hasLength then readVarint buf off else some (buf.length - off, off)
  let (data, off) ← readBytes buf off dataLen
  some (.stream { streamId, offset, hasLength, fin, data }, off)

def parseNewConnectionId (buf : Bytes) (off : Nat) : Option (Frame × Nat) := do
  let (sequenceNumber, off) ← readVarint buf off
  let (retirePriorTo, off) ← readVarint buf off
  let cidLen ← buf[off]?
  if cidLen.toNat < 1 ∨ cidLen.toNat > 20 then none
  else
    let (connectionId, off) ← readBytes buf (off + 1) cidLen.toNat
    let (statelessResetToken, off) ← readBytes buf off 16
    some (.newConnectionId { sequenceNumber, retirePriorTo, connectionId, statelessResetToken },
      off)

def parseConnectionClose (buf : Bytes) (off : Nat) (application : Bool) : Option (Frame × Nat) := do
  let (errorCode, off) ← readVarint buf off
  let (frameType, off) ← if application then some (0, off) else readVarint buf off
  let (reasonLen, off) ← readVarint buf off
  let (reason, off) ← readBytes buf off reasonLen
  some (.connectionClose { application, errorCode, frameType, reason }, off)

def parsePair (buf : Bytes) (off : Nat) (mk : Nat → Nat → Frame) : Option (Frame × Nat) := do
  let (a, off) ← readVarint buf off
  let (b, off) ← readVarint buf off
  some (mk a b, off)

def parseSingle (buf : Bytes) (off : Nat) (mk : Nat → Frame) : Option (Frame × Nat) := do
  let (a, off) ← readVarint buf off
  some (mk a, off)

/-- The frame of type `typeRaw` whose fields start at `off`, tested in the order of the code. -/
def parseFields (buf : Bytes) (typeRaw off : Nat) : Option (Frame × Nat) :=
  if typeRaw = 0x00 then
    let run := ((buf.drop off).takeWhile (· == 0)).length
    some (.padding (1 + run), off + run)
  else if typeRaw = 0x01 then some (.ping, off)
  else if typeRaw = 0x02 ∨ typeRaw = 0x03 then parseAck buf off (typeRaw == 0x03)
  else if typeRaw = 0x04 then parseResetStream buf off
  else if typeRaw = 0x05 then parsePair buf off .stopSending
  else if typeRaw = 0x06 then parseCrypto buf off
  else if typeRaw = 0x07 then do
    let (length, off) ← readVarint buf off
    let (token, off) ← readBytes buf off length
    some (.newToken token, off)
  -- the mask is an 8-bit constant, so only the low byte of the type is compared
  else if typeRaw &&& 0xF8 = 0x08 then parseStream buf off typeRaw
  else if typeRaw = 0x10 then parseSingle buf off .maxData
  else if typeRaw = 0x11 then parsePair buf off .maxStreamData
  else if typeRaw = 0x12 ∨ typeRaw = 0x13 then parseSingle buf off (.maxStreams (typeRaw == 0x12))
  else if typeRaw = 0x14 then parseSingle buf off .dataBlocked
  else if typeRaw = 0x15 then parsePair buf off .streamDataBlocked
  else if typeRaw = 0x16 ∨ typeRaw = 0x17 then
    parseSingle buf off (.streamsBlocked (typeRaw == 0x16))
  else if typeRaw = 0x18 then parseNewConnectionId buf off
  else if typeRaw = 0x19 then parseSingle buf off .retireConnectionId
  else if typeRaw = 0x1a ∨ typeRaw = 0x1b then do
    let (data, off) ← readBytes buf off 8
    some (if typeRaw = 0x1a then .pathChallenge data else .pathResponse data, off)
  else if typeRaw = 0x1c ∨ typeRaw = 0x1d then parseConnectionClose buf off (typeRaw == 0x1d)
  else if typeRaw = 0x1e then some (.handshakeDone, off)
  else none

/-- Parse the frame at `offset`. The second component is the offset afterwards: past the frame on
success, back at its start on failure. -/
def parseFrame (buf : Bytes) (offset : Nat) : Option Frame × Nat :=
  match readVarint buf offset with
  | none => (none, offset)
  | some (typeRaw, off) =>
    match parseFields buf typeRaw off with
    | none => (none, offset)
    | some (f, off) => (some f, off)

/-- The loop of `parse_frames`. Every frame takes at least its type byte, so the payload length
bounds the number of iterations. -/
def parseFramesFrom (payload : Bytes) : Nat → Nat → Option (List Frame)
  | fuel, off =>
    if off < payload.length then
      match fuel, parseFrame payload off with
      | fuel + 1, (some f, off) => (parseFramesFrom payload fuel off).map (f :: ·)
      | _, _ => none
    else some []

def parseFrames (payload : Bytes) : Option (List Frame) :=
  parseFramesFrom payload payload.length 0

/-! ## Encoding -/

def concatAll : List (Option Bytes) → Option Bytes
  | [] => some []
  | part :: parts => do
    let a ← part
    let b ← concatAll parts
    some (a ++ b)

def encodeFrame : Frame → Option Bytes
  | .padding count => some (List.replicate count 0x00)
  | .ping => encode 0x01
  | .ack f => concatAll <|
      [encode (if f.ecn then 0x03 else 0x02), encode f.largestAcked,
        encode f.ackDelay, encode f.ranges.length, encode f.firstRange] ++
      f.ranges.flatMap (fun r => [encode r.gap, encode r.length]) ++
      if f.ecn then [encode f.ect0, encode f.ect1, encode f.ce] else []
  | .resetStream f => concatAll
      [encode 0x04, encode f.streamId, encode f.appError,
        encode f.finalSize]
  | .stopSending streamId appError => concatAll
      [encode 0x05, encode streamId, encode appError]
  | .crypto f => concatAll
      [encode 0x06, encode f.offset, encode f.data.length, some f.data]
  | .newToken token => concatAll [encode 0x07, encode token.length, some token]
  | .stream f => concatAll <|
      [some [0x0A ||| (if f.offset ≠ 0 then 0x04 else 0) ||| (if f.fin then 0x01 else 0)],
        encode f.streamId] ++
      (if f.offset ≠ 0 then [encode f.offset] else []) ++
      [encode f.data.length, some f.data]
  | .maxData maximum => concatAll [encode 0x10, encode maximum]
  | .maxStreamData streamId maximum => concatAll
      [encode 0x11, encode streamId, encode maximum]
  | .maxStreams bidi maximum => concatAll
      [encode (if bidi then 0x12 else 0x13), encode maximum]
  | .dataBlocked limit => concatAll [encode 0x14, encode limit]
  | .streamDataBlocked streamId limit => concatAll
      [encode 0x15, encode streamId, encode limit]
  | .streamsBlocked bidi limit => concatAll
      [encode (if bidi then 0x16 else 0x17), encode limit]
  | .newConnectionId f => concatAll
      [encode 0x18, encode f.sequenceNumber, encode f.retirePriorTo,
        some [UInt8.ofNat f.connectionId.length], some f.connectionId,
        some f.statelessResetToken]
  | .retireConnectionId sequenceNumber => concatAll
      [encode 0x19, encode sequenceNumber]
  | .pathChallenge data => concatAll [encode 0x1a, some data]
  | .pathResponse data => concatAll [encode 0x1b, some data]
  | .connectionClose f => concatAll <|
      [encode (if f.application then 0x1d else 0x1c), encode f.errorCode] ++
      (if f.application then [] else [encode f.frameType]) ++
      [encode f.reason.length, some f.reason]
  | .handshakeDone => encode 0x1e

def encodeFrames (frames : List Frame) : Option Bytes := concatAll (frames.map encodeFrame)

end Spaznet.Quic
