import Spaznet.Quic.Connection.State

/-!
# Frame handlers

What a connection does with each received frame, with acknowledgements and with losses.
-/

namespace Spaznet.Quic

/-- RFC 9000 §4.5: a stream offset never exceeds this. -/
def kMaxStreamOffset : Nat := 2 ^ 62 - 1

def kMaxCryptoWindow : Nat := 64 * 1024

/-- The closed intervals of packet numbers that the ranges after `lo` name, until one is
malformed. -/
def AckFrame.intervalsBelow (lo : Nat) : List AckRange → List (Nat × Nat)
  | [] => []
  | r :: rest =>
    if lo < r.gap + 2 then []
    else
      let hi := lo - r.gap - 2
      if r.length > hi then []
      else (hi - r.length, hi) :: intervalsBelow (hi - r.length) rest

/-- The intervals an ACK frame acknowledges; none when its first range does not fit. -/
def AckFrame.intervals (f : AckFrame) : List (Nat × Nat) :=
  if f.firstRange > f.largestAcked then []
  else
    (f.largestAcked - f.firstRange, f.largestAcked) ::
      intervalsBelow (f.largestAcked - f.firstRange) f.ranges

namespace Connection

/-! ## CRYPTO -/

/-- Feed the chunks that start at or before the read offset, lowest first: the new read offset, the
engine, and how many chunks were taken out. -/
def feedChunks (level : EncryptionLevel) (readOffset : Nat) (tls : TlsConnection) :
    List (Nat × Bytes) → Nat × TlsConnection × Nat
  | [] => (readOffset, tls, 0)
  | (offset, data) :: rest =>
    if offset > readOffset then (readOffset, tls, 0)
    else if offset + data.length ≤ readOffset then
      let (readOffset, tls, n) := feedChunks level readOffset tls rest
      (readOffset, tls, n + 1)
    else
      let chunk := data.drop (readOffset - offset)
      let (readOffset, tls, n) :=
        feedChunks level (readOffset + chunk.length) (tls.deliverCrypto level chunk) rest
      (readOffset, tls, n + 1)

def feedTlsCrypto (c : Connection) (level : EncryptionLevel) : Connection :=
  let sp := c.spaces level
  let (readOffset, tls, n) := feedChunks level sp.cryptoReadOffset c.tls sp.cryptoRecv.entries
  { c with
    tls
    spaces := Function.update c.spaces level
      { sp with cryptoReadOffset := readOffset, cryptoRecv := sp.cryptoRecv.drop n } }

def onCryptoFrame (c : Connection) (level : EncryptionLevel) (f : CryptoFrame) : Connection :=
  let sp := c.spaces level
  let end_ := Word64.add f.offset f.data.length
  if end_ > sp.cryptoReadOffset + kMaxCryptoWindow then
    c.closeTransport 0x0d "crypto buffer exceeded" FrameType.crypto
  else
    (c.setSpace level { sp with cryptoRecv := sp.cryptoRecv.insert f.offset f.data }).feedTlsCrypto
      level

/-! ## STREAM and RESET_STREAM -/

/-- Whether raising a stream's high-water mark from `prevHw` to `end_` would exceed the
connection's receive limit. -/
def exceedsConnLimit (c : Connection) (prevHw end_ : Nat) : Bool :=
  end_ > prevHw && end_ - prevHw > Word64.sub c.connRecvMaxData c.connRecvTotal

/-- Store a stream that has received data and charge the growth of its high-water mark. -/
def chargeStream (c : Connection) (streamId prevHw : Nat) (s : Stream) : Connection :=
  { c with
    streams := c.streams.modify streamId fun _ => s
    connRecvTotal :=
      if s.recvHighWater > prevHw then Word64.add c.connRecvTotal (s.recvHighWater - prevHw)
      else c.connRecvTotal }

/-- What STREAM and RESET_STREAM put into their common handling. -/
structure StreamDelivery where
  streamId : Nat
  overflows : Bool
  overflowReason : String
  /-- One past the last byte the frame accounts for. -/
  end_ : Nat
  /-- `deliver` or `reset_recvd`. -/
  apply : Stream → Bool × Stream
  refusedCode : Nat
  refusedReason : String
  frameType : Nat

/-- Open the stream if the limits allow it, charge the connection's receive window and hand the
frame to the stream. -/
def deliverTo (c : Connection) (d : StreamDelivery) : Connection :=
  if c.exceedsStreamLimit d.streamId then
    c.closeTransport 0x04 "stream limit exceeded" FrameType.stream
  else if d.overflows then c.closeTransport 0x03 d.overflowReason d.frameType
  else
    let (s, c) := c.ensureStream d.streamId
    if c.exceedsConnLimit s.recvHighWater d.end_ then
      c.closeTransport 0x03 "connection flow control" d.frameType
    else
      let (ok, s') := d.apply s
      if !ok then c.closeTransport d.refusedCode d.refusedReason d.frameType
      else c.chargeStream d.streamId s.recvHighWater s'

def streamDelivery (f : StreamFrame) : StreamDelivery where
  streamId := f.streamId
  overflows := f.data.length > kMaxStreamOffset || f.offset > kMaxStreamOffset - f.data.length
  overflowReason := "stream offset overflow"
  end_ := f.offset + f.data.length
  apply s := s.deliver f.offset f.data f.fin
  refusedCode := 0x03
  refusedReason := "stream limit violation"
  frameType := FrameType.stream

def resetDelivery (f : ResetStreamFrame) : StreamDelivery where
  streamId := f.streamId
  overflows := f.finalSize > kMaxStreamOffset
  overflowReason := "reset final size overflow"
  end_ := f.finalSize
  apply s := s.resetRecvd f.finalSize f.appError
  refusedCode := 0x06
  refusedReason := "final size error"
  frameType := FrameType.resetStream

def onStreamFrame (c : Connection) (f : StreamFrame) : Connection := c.deliverTo (streamDelivery f)

def onResetStreamFrame (c : Connection) (f : ResetStreamFrame) : Connection :=
  c.deliverTo (resetDelivery f)

/-! ## Loss -/

/-- Apply `f` to the stream a frame names, if it is live; `none` is an access outside its
buffer. -/
def updateStream (c : Connection) (streamId : Nat) (f : Stream → Option Stream) : Connection :=
  match c.findStream streamId with
  | none => c
  | some s => match f s with
    | none => { c with faulted := true }
    | some s' => { c with streams := c.streams.modify streamId fun _ => s' }

def streamLost (c : Connection) (sf : StreamFrame) : Connection :=
  c.updateStream sf.streamId fun s => some (s.onLost sf.offset sf.data.length)

/-- Requeue the frames of a record and tell congestion control. -/
def declareLost (c : Connection) (env : Env) (level : EncryptionLevel) (r : SentRecord) :
    Connection :=
  let c := r.streams.foldl streamLost c
  let c := { c with
    cryptoPending := Function.update c.cryptoPending level (c.cryptoPending level ++ r.crypto) }
  if r.ackEliciting then
    { c.ticked with congestion := c.congestion.onPacketsLost (c.now env) r.bytes r.sentAt }
  else c

def loseEntry (env : Env) (level : EncryptionLevel) (c : Connection) (e : Nat × SentRecord) :
    Connection :=
  let c := c.declareLost env level e.2
  c.setSent level ((c.sent level).erase e.1)

/-- The entries below the largest acknowledged number that the packet or the time threshold
declares lost. -/
def lostEntries (c : Connection) (level : EncryptionLevel) (timeCutoff : TimePoint) :
    List (Nat × SentRecord) :=
  let largest := (c.spaces level).largestAckedPn
  ((c.sent level).entries.takeWhile (·.1 < largest)).filter fun e =>
    largest - e.1 ≥ Recovery.kPacketThreshold || e.2.sentAt ≤ timeCutoff

def detectAndHandleLoss (c : Connection) (env : Env) (level : EncryptionLevel) : Connection :=
  if !(c.spaces level).anyAcked || (c.sent level).entries.isEmpty then c
  else
    let timeCutoff := c.now env - c.recovery.lossTimeThreshold
    (c.lostEntries level timeCutoff).foldl (loseEntry env level) c.ticked

/-- The probe timeout of one level: every ack-eliciting packet in flight is declared lost. -/
def firePto (c : Connection) (env : Env) (level : EncryptionLevel) : Connection :=
  let c := ((c.sent level).entries.filter (·.2.ackEliciting)).foldl (loseEntry env level) c
  c.setSpace level { c.spaces level with anyAckElicitingSent := false }

def ptoExpired (c : Connection) (now : TimePoint) (pto : Duration) (level : EncryptionLevel) :
    Bool :=
  let sp := c.spaces level
  sp.anyAckElicitingSent && !(c.sent level).entries.isEmpty &&
    !decide (now - sp.lastAckElicitingSendTime < pto)

/-- One round of the loop over the levels: whether a timeout has fired so far, and the state. -/
def checkLevelPto (env : Env) (now : TimePoint) (pto : Duration) (x : Bool × Connection)
    (level : EncryptionLevel) : Bool × Connection :=
  if x.2.ptoExpired now pto level then (true, x.2.firePto env level) else x

def checkPto (c : Connection) (env : Env) : Connection :=
  let pto := c.recovery.ptoTimeout (milliseconds c.peerTp.maxAckDelayMs)
  let (fired, c) := EncryptionLevel.sending.foldl (checkLevelPto env (c.now env) pto)
    (false, c.ticked)
  if fired then { c with recovery := c.recovery.onPtoFired } else c

/-! ## ACK -/

def streamAcked (c : Connection) (sf : StreamFrame) : Connection :=
  c.updateStream sf.streamId fun s => s.onAcked sf.offset sf.data.length

/-- Tell the streams and congestion control about an acknowledged packet and erase it. -/
def ackEntry (env : Env) (level : EncryptionLevel) (c : Connection) (e : Nat × SentRecord) :
    Connection :=
  let c := e.2.streams.foldl streamAcked c
  let c := { c.ticked with congestion := c.congestion.onPacketsAcked (c.now env) e.2.bytes }
  c.setSent level ((c.sent level).erase e.1)

def ackRange (env : Env) (level : EncryptionLevel) (c : Connection) (interval : Nat × Nat) :
    Connection :=
  ((c.sent level).entries.filter fun e => interval.1 ≤ e.1 && e.1 ≤ interval.2).foldl
    (ackEntry env level) c

def noteLargestAcked (c : Connection) (level : EncryptionLevel) (pn : Nat) : Connection :=
  let sp := c.spaces level
  if !sp.anyAcked || pn > sp.largestAckedPn then
    c.setSpace level { sp with largestAckedPn := pn, anyAcked := true }
  else c

/-- The acknowledgement delay in microseconds. The shift takes its count modulo 64, as the machine
does. -/
def scaledAckDelay (c : Connection) (ackDelay : Nat) : Nat :=
  let scaled := ackDelay * 2 ^ (c.peerTp.ackDelayExponent % 64) % 2 ^ 64
  let capUs := c.peerTp.maxAckDelayMs * 1000 % 2 ^ 64
  if capUs > 0 ∧ scaled > capUs then capUs else scaled

def sampleRtt (c : Connection) (env : Env) (sentAt : TimePoint) (ackDelay : Nat) : Connection :=
  { c.ticked with
    recovery := c.recovery.onRttSample (c.now env - sentAt)
      (microseconds (c.scaledAckDelay ackDelay)) }

/-- When the packet with the largest acknowledged number was sent, if it is in flight and
ack-eliciting. -/
def rttSampleTime (c : Connection) (level : EncryptionLevel) (f : AckFrame) : Option TimePoint :=
  ((c.sent level).find? f.largestAcked).bind fun r =>
    if r.ackEliciting then some r.sentAt else none

def onAckFrame (c : Connection) (env : Env) (level : EncryptionLevel) (f : AckFrame) :
    Connection :=
  let sentAt := c.rttSampleTime level f
  let c := c.noteLargestAcked level f.largestAcked
  if f.firstRange > f.largestAcked then c
  else
    let c := f.intervals.foldl (ackRange env level) c
    let c := { c with recovery := c.recovery.resetPto }
    let c := match sentAt with
      | some t => c.sampleRtt env t f.ackDelay
      | none => c
    c.detectAndHandleLoss env level

/-! ## Dispatch -/

/-- The visitor of `deliver_frames`. -/
def onFrame (c : Connection) (env : Env) (level : EncryptionLevel) : Frame → Connection
  | .crypto f => c.onCryptoFrame level f
  | .stream f => c.onStreamFrame f
  | .ack f => c.onAckFrame env level f
  | .connectionClose _ => { c with state := .draining }
  | .pathChallenge data =>
    if level = .application then
      { c with pendingPathResponses := c.pendingPathResponses ++ [data] }
    else c
  | .resetStream f => c.onResetStreamFrame f
  | .maxData maximum =>
    if maximum > c.connSendMaxData then { c with connSendMaxData := maximum } else c
  | .maxStreamData streamId maximum =>
    c.updateStream streamId fun s => some (s.setSendLimit maximum)
  | .maxStreams bidi maximum =>
    if bidi then
      if maximum > c.peerMaxStreamsBidi then { c with peerMaxStreamsBidi := maximum } else c
    else if maximum > c.peerMaxStreamsUni then { c with peerMaxStreamsUni := maximum }
    else c
  | .dataBlocked _ => { c with maxDataPending := true }
  | .streamsBlocked bidi _ =>
    if bidi then { c with maxStreamsBidiPending := true }
    else { c with maxStreamsUniPending := true }
  | .padding _ | .ping | .stopSending _ _ | .newToken _ | .streamDataBlocked _ _
  | .newConnectionId _ | .retireConnectionId _ | .pathResponse _ | .handshakeDone => c

end Connection

end Spaznet.Quic
