import Mathlib.Logic.Function.Basic
import Spaznet.Lib.OrdMap
import Spaznet.Quic.Packet
import Spaznet.Quic.PnSpace
import Spaznet.Quic.Stream.Basic
import Spaznet.Quic.Tls

/-!
# State of a server connection

The members of `Connection`, with the arrays over encryption levels as functions. Two members are
not in the code: `clockReads` counts the clock readings taken so far, and `faulted` marks a state
after an access outside a buffer, where the behaviour of the code is undefined.
-/

namespace Spaznet.Quic

open Function

inductive ConnState where
  | handshaking
  | established
  | closing
  | draining
  | closed
  deriving DecidableEq, Repr

structure SentRecord where
  ackEliciting : Bool
  bytes : Nat
  sentAt : TimePoint
  crypto : List CryptoFrame
  streams : List StreamFrame
  deriving DecidableEq, Repr

structure Space where
  aead : Aead := .aes128Gcm
  sendKeys : PacketKeys := {}
  recvKeys : PacketKeys := {}
  sendCtx : CipherCtx := {}
  recvCtx : CipherCtx := {}
  sendKeysReady : Bool := false
  recvKeysReady : Bool := false
  largestRecvPn : Nat := 0
  anyRecv : Bool := false
  nextSendPn : Nat := 0
  acks : PnSpace := {}
  cryptoRecv : OrdMap Bytes := ∅
  cryptoReadOffset : Nat := 0
  cryptoSendOffset : Nat := 0
  lastAckElicitingSendTime : TimePoint := 0
  anyAckElicitingSent : Bool := false
  largestAckedPn : Nat := 0
  anyAcked : Bool := false
  sendSecret : Bytes := []
  recvSecret : Bytes := []
  nextSendKeys : PacketKeys := {}
  nextRecvKeys : PacketKeys := {}
  nextSendCtx : CipherCtx := {}
  nextRecvCtx : CipherCtx := {}
  sendKeyPhase : Bool := false
  recvKeyPhase : Bool := false
  nextKeysReady : Bool := false

structure Connection where
  state : ConnState := .handshaking
  dcid : Bytes
  scid : Bytes
  lastActivity : TimePoint
  tls : TlsConnection
  localTp : TransportParameters
  spaces : EncryptionLevel → Space := fun _ => {}
  recovery : Recovery := {}
  congestion : Congestion := {}
  streams : OrdMap Stream := ∅
  sent : EncryptionLevel → OrdMap SentRecord := fun _ => ∅
  cryptoPending : EncryptionLevel → List CryptoFrame := fun _ => []
  sentHandshakeDone : Bool := false
  pendingClose : Option ConnectionCloseFrame := none
  pendingPathResponses : List Bytes := []
  peerAddressValidated : Bool := false
  recvBytesTotal : Nat := 0
  sentBytesUnvalidated : Nat := 0
  connRecvMaxData : Nat := 0
  connRecvTotal : Nat := 0
  connRecvConsumed : Nat := 0
  retiredRecvConsumed : Nat := 0
  maxDataPending : Bool := false
  connSendMaxData : Nat := 0
  connSendTotal : Nat := 0
  localMaxStreamsBidi : Nat := 0
  localMaxStreamsUni : Nat := 0
  peerMaxStreamsBidi : Nat := 0
  peerMaxStreamsUni : Nat := 0
  streamsBidiClosed : Nat := 0
  streamsUniClosed : Nat := 0
  maxStreamsBidiPending : Bool := false
  maxStreamsUniPending : Bool := false
  clockReads : Nat := 0
  faulted : Bool := false

namespace Connection

/-- The clock reading the next call of `clock_fn_` returns. -/
def now (c : Connection) (env : Env) : TimePoint := env.clock c.clockReads

def ticked (c : Connection) : Connection := { c with clockReads := c.clockReads + 1 }

def setSpace (c : Connection) (level : EncryptionLevel) (sp : Space) : Connection :=
  { c with spaces := update c.spaces level sp }

@[simp] theorem spaces_setSpace_self (c : Connection) (level : EncryptionLevel) (sp : Space) :
    (c.setSpace level sp).spaces level = sp := update_self ..

theorem spaces_setSpace_of_ne (c : Connection) (h : l ≠ level) (sp : Space) :
    (c.setSpace level sp).spaces l = c.spaces l := update_of_ne h ..

def setSent (c : Connection) (level : EncryptionLevel) (m : OrdMap SentRecord) : Connection :=
  { c with sent := update c.sent level m }

def peerTp (c : Connection) : TransportParameters := c.tls.peerTransportParams

/-- Whether `initiate_close` is a no-op: the first close wins. -/
def closeBegun (c : Connection) : Bool :=
  match c.state with
  | .handshaking | .established => false
  | .closing | .draining | .closed => true

/-- Queue a CONNECTION_CLOSE and enter Closing. -/
def initiateClose (c : Connection) (errorCode : Nat) (application : Bool) (reason : Bytes)
    (frameType : Nat) : Connection :=
  { c with
    pendingClose :=
      if c.closeBegun then c.pendingClose
      else some { application, errorCode, frameType, reason }
    state := if c.closeBegun then c.state else .closing }

def reasonBytes (s : String) : Bytes := s.toUTF8.data.toList

def closeTransport (c : Connection) (errorCode : Nat) (reason : String) (frameType : Nat) :
    Connection :=
  c.initiateClose errorCode false (reasonBytes reason) frameType

def findStream (c : Connection) (streamId : Nat) : Option Stream := c.streams.find? streamId

/-- Receive and send limits of a new stream, by initiator and direction. -/
def initialLimits (c : Connection) (streamId : Nat) : Nat × Nat :=
  if isBidi streamId then
    if isClientInitiated streamId then
      (c.localTp.initialMaxStreamDataBidiRemote, c.peerTp.initialMaxStreamDataBidiLocal)
    else (c.localTp.initialMaxStreamDataBidiLocal, c.peerTp.initialMaxStreamDataBidiRemote)
  else if isClientInitiated streamId then (c.localTp.initialMaxStreamDataUni, 0)
  else (0, c.peerTp.initialMaxStreamDataUni)

def newStream (c : Connection) (streamId : Nat) : Stream :=
  { id := streamId
    recvLimit := (c.initialLimits streamId).1
    sendLimit := (c.initialLimits streamId).2 }

def ensureStream (c : Connection) (streamId : Nat) : Stream × Connection :=
  match c.findStream streamId with
  | some s => (s, c)
  | none =>
    (c.newStream streamId, { c with streams := c.streams.insert streamId (c.newStream streamId) })

/-- Whether a peer-initiated id that is not open lies beyond the advertised MAX_STREAMS. -/
def exceedsStreamLimit (c : Connection) (streamId : Nat) : Bool :=
  isClientInitiated streamId && (c.findStream streamId).isNone &&
    decide (streamId >>> 2 ≥
      if isBidi streamId then c.localMaxStreamsBidi else c.localMaxStreamsUni)

/-- The constructor, given transport parameters that can be encoded: those that cannot make it
throw. -/
def create (env : Env) (clientDcid clientScid serverScid : Bytes) (tp : TransportParameters) :
    Connection :=
  let aead := Aead.aes128Gcm
  let recvKeys := env.derivePacketKeys aead (env.deriveInitialSecret clientDcid .client)
  let sendKeys := env.derivePacketKeys aead (env.deriveInitialSecret clientDcid .server)
  { dcid := clientScid
    scid := serverScid
    lastActivity := env.clock 0
    clockReads := 1
    tls := {}
    localTp := tp
    connRecvMaxData := tp.initialMaxData
    localMaxStreamsBidi := tp.initialMaxStreamsBidi
    localMaxStreamsUni := tp.initialMaxStreamsUni
    spaces := update (fun _ => {}) .initial
      { aead, recvKeys, sendKeys
        sendCtx := .init env.toCrypto aead sendKeys.key .encrypt
        recvCtx := .init env.toCrypto aead recvKeys.key .decrypt
        recvKeysReady := true
        sendKeysReady := true } }

end Connection

end Spaznet.Quic
