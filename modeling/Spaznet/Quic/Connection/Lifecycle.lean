import Spaznet.Quic.Connection.State

/-!
# Streams, windows and timers of a connection

The application's calls, the retirement of closed streams, the receive window, and the idle timeout.
-/

namespace Spaznet.Quic

namespace Stream

/-- Nothing more will be received, or what is received is thrown away. -/
def recvDone (s : Stream) : Bool :=
  s.recvState == .dataRead || s.recvState == .resetRead || s.recvState == .resetRecvd

def sendDone (s : Stream) : Bool := s.sendState == .dataRecvd || s.sendState == .resetRecvd

/-- Closed in every direction the stream has. -/
def terminal (id : Nat) (s : Stream) : Bool :=
  if isBidi id then s.recvDone && s.sendDone
  else if isClientInitiated id then s.recvDone
  else s.sendDone

end Stream

namespace Connection

def writeStream (c : Connection) (streamId : Nat) (data : Bytes) (fin : Bool) : Connection :=
  let (s, c) := c.ensureStream streamId
  { c with streams := c.streams.modify streamId fun _ => s.write data fin }

/-- The bytes read, the FIN flag, and the connection after the read. -/
def readStream (c : Connection) (streamId : Nat) : (Bytes × Bool) × Connection :=
  match c.findStream streamId with
  | none => (([], false), c)
  | some s =>
    (s.readContiguous.1,
      { c with streams := c.streams.modify streamId fun _ => s.readContiguous.2 })

def closedStreams (c : Connection) : List (Nat × Stream) :=
  c.streams.entries.filter fun e => e.2.terminal e.1

/-- Raise a MAX_STREAMS limit to `closed + window`: the limit and whether it is to be announced. -/
def creditStreams (closed window limit : Nat) (pending : Bool) : Nat × Bool :=
  if window > 0 ∧ closed + window > limit then (closed + window, true) else (limit, pending)

/-- Erase the closed streams, credit MAX_STREAMS and keep their received bytes as consumed. -/
def retireClosedStreams (c : Connection) : Connection :=
  let closed := c.closedStreams
  let peers := closed.filter fun e => isClientInitiated e.1
  let streamsBidiClosed := c.streamsBidiClosed + peers.countP fun e => isBidi e.1
  let streamsUniClosed := c.streamsUniClosed + peers.countP fun e => !isBidi e.1
  let bidi := creditStreams streamsBidiClosed c.localTp.initialMaxStreamsBidi
    c.localMaxStreamsBidi c.maxStreamsBidiPending
  let uni := creditStreams streamsUniClosed c.localTp.initialMaxStreamsUni
    c.localMaxStreamsUni c.maxStreamsUniPending
  { c with
    streams := c.streams.filter fun id s => !s.terminal id
    streamsBidiClosed
    streamsUniClosed
    retiredRecvConsumed :=
      closed.foldl (fun total e => Word64.add total e.2.recvHighWater) c.retiredRecvConsumed
    localMaxStreamsBidi := bidi.1
    maxStreamsBidiPending := bidi.2
    localMaxStreamsUni := uni.1
    maxStreamsUniPending := uni.2 }

/-- What the application has consumed, summed over live and retired streams. -/
def recvConsumed (c : Connection) : Nat :=
  c.streams.entries.foldl (fun total e => Word64.add total e.2.recvReadOffset)
    c.retiredRecvConsumed

/-- Move the receive limit on once less than half a window is left. -/
def extendConnRecvWindow (c : Connection) : Connection :=
  let window := c.localTp.initialMaxData
  let extend : Bool := window ≠ 0 ∧
    Word64.sub c.connRecvMaxData c.connRecvConsumed < window / 2
  { c with
    connRecvMaxData := if extend then Word64.add c.connRecvConsumed window else c.connRecvMaxData
    maxDataPending := c.maxDataPending || extend }

def refreshConnRecvWindow (c : Connection) : Connection :=
  extendConnRecvWindow { c with connRecvConsumed := c.recvConsumed }

/-- The lesser of the two idle timeouts, where 0 is none. -/
def effectiveIdleMs (c : Connection) : Nat :=
  let localMs := c.localTp.maxIdleTimeoutMs
  let peerMs := c.peerTp.maxIdleTimeoutMs
  if localMs > 0 ∧ peerMs > 0 then min localMs peerMs
  else if localMs > 0 then localMs
  else peerMs

def checkIdleTimeout (c : Connection) (env : Env) : Connection :=
  if c.closeBegun || c.effectiveIdleMs = 0 then c
  else if c.now env - c.lastActivity ≥ milliseconds c.effectiveIdleMs then
    { c.ticked with state := .draining }
  else c.ticked

/-- Queue the CRYPTO bytes TLS has produced for a level that can send. -/
def pullLevelCrypto (c : Connection) (level : EncryptionLevel) : Connection :=
  let buf := c.tls.outCrypto level
  let sp := c.spaces level
  if buf.isEmpty || !sp.sendKeysReady then c
  else { c with
    cryptoPending := Function.update c.cryptoPending level
      (c.cryptoPending level ++ [{ offset := sp.cryptoSendOffset, data := buf }])
    spaces := Function.update c.spaces level
      { sp with cryptoSendOffset := sp.cryptoSendOffset + buf.length }
    tls := c.tls.clearOut level }

def pullCryptoFromTls (c : Connection) : Connection :=
  EncryptionLevel.sending.foldl pullLevelCrypto c

def noteDatagram (c : Connection) (env : Env) (size : Nat) : Connection :=
  { c.ticked with lastActivity := c.now env, recvBytesTotal := c.recvBytesTotal + size }

def establish (c : Connection) : Connection :=
  { c with state :=
      if c.tls.state = .established ∧ c.state = .handshaking then .established else c.state }

end Connection

end Spaznet.Quic
