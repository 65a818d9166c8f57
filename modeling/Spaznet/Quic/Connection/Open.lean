import Spaznet.Quic.Connection.State

/-!
# Keys and the opening of packets

Key installation and update, and the part of the receive path that removes header protection and
opens the AEAD. `openLongPacket` also lists the accesses to the carved packet and the subtractions
that the code makes on the way, so that their bounds can be stated.
-/

namespace Spaznet.Quic

/-! ## Key schedule -/

namespace Space

/-- Install the receive keys of a level once TLS has a secret for it. -/
def installRecv (y : Crypto) (level : EncryptionLevel) (aead : Aead) (secret : Bytes)
    (sp : Space) : Space :=
  if sp.recvKeysReady || secret.isEmpty then sp
  else
    let recvKeys := y.derivePacketKeys aead secret
    { sp with
      aead
      recvKeys
      recvCtx := .init y aead recvKeys.key .decrypt
      recvKeysReady := true
      recvSecret := if level = .application then secret else sp.recvSecret }

def installSend (y : Crypto) (level : EncryptionLevel) (aead : Aead) (secret : Bytes)
    (sp : Space) : Space :=
  if sp.sendKeysReady || secret.isEmpty then sp
  else
    let sendKeys := y.derivePacketKeys aead secret
    { sp with
      aead
      sendKeys
      sendCtx := .init y aead sendKeys.key .encrypt
      sendKeysReady := true
      sendSecret := if level = .application then secret else sp.sendSecret }

/-- The keys of the phase after `secret`; the header-protection key does not rotate. -/
def nextPhaseKeys (y : Crypto) (aead : Aead) (secret hp : Bytes) : PacketKeys :=
  { y.derivePacketKeys aead (y.deriveNextApplicationSecret (aeadHash aead) secret) with hp }

/-- Derive the keys of the next phase in advance. -/
def prepareNext (y : Crypto) (level : EncryptionLevel) (sp : Space) : Space :=
  if level = .application ∧ sp.sendKeysReady ∧ sp.recvKeysReady ∧ !sp.nextKeysReady then
    let nextSendKeys := nextPhaseKeys y sp.aead sp.sendSecret sp.sendKeys.hp
    let nextRecvKeys := nextPhaseKeys y sp.aead sp.recvSecret sp.recvKeys.hp
    { sp with
      nextSendKeys
      nextRecvKeys
      nextSendCtx := .init y sp.aead nextSendKeys.key .encrypt
      nextRecvCtx := .init y sp.aead nextRecvKeys.key .decrypt
      nextKeysReady := true }
  else sp

def rotateSend (y : Crypto) (sp : Space) : Space :=
  let sendSecret := y.deriveNextApplicationSecret (aeadHash sp.aead) sp.sendSecret
  let nextSendKeys := nextPhaseKeys y sp.aead sendSecret sp.nextSendKeys.hp
  { sp with
    sendSecret
    sendKeys := sp.nextSendKeys
    sendCtx := sp.nextSendCtx
    nextSendKeys
    nextSendCtx := .init y sp.aead nextSendKeys.key .encrypt
    sendKeyPhase := !sp.sendKeyPhase }

/-- Commit a peer's key update: the receive side moves on, and the send side follows unless it is
already there. -/
def commitRecv (y : Crypto) (sp : Space) : Space :=
  let recvSecret := y.deriveNextApplicationSecret (aeadHash sp.aead) sp.recvSecret
  let nextRecvKeys := nextPhaseKeys y sp.aead recvSecret sp.nextRecvKeys.hp
  let sp := { sp with
    recvSecret
    recvKeys := sp.nextRecvKeys
    recvCtx := sp.nextRecvCtx
    nextRecvKeys
    nextRecvCtx := .init y sp.aead nextRecvKeys.key .decrypt
    recvKeyPhase := !sp.recvKeyPhase }
  if sp.sendKeyPhase ≠ sp.recvKeyPhase then sp.rotateSend y else sp

def noteOpened (sp : Space) (pn : Nat) : Space :=
  { sp with
    largestRecvPn := if !sp.anyRecv || pn > sp.largestRecvPn then pn else sp.largestRecvPn
    anyRecv := true }

end Space

/-! ## Accesses to a packet buffer -/

/-- An access to the carved packet, or an unsigned subtraction. -/
inductive Access where
  | bytes (off len : Nat)
  | sub (a b : Nat)
  deriving DecidableEq, Repr

/-- The access stays inside a buffer of the given size; the subtraction does not wrap. -/
def Access.Ok (size : Nat) : Access → Prop
  | .bytes off len => off + len ≤ size
  | .sub a b => b ≤ a

instance (size : Nat) : (a : Access) → Decidable (a.Ok size)
  | .bytes off len => inferInstanceAs (Decidable (off + len ≤ size))
  | .sub a b => inferInstanceAs (Decidable (b ≤ a))

/-- How the processing of one long-header packet ends before its frames are read. -/
inductive LongResult where
  /-- The code returns 0 and the datagram is abandoned. -/
  | abandon
  /-- The packet is dropped; the next one starts at `cursor`. -/
  | skip (cursor : Nat)
  | opened (level : EncryptionLevel) (pn : Nat) (payload : Bytes) (cursor : Nat)
  /-- An access outside the packet. -/
  | fault
  deriving DecidableEq, Repr

structure LongPacket where
  result : LongResult
  size : Nat := 0
  accesses : List Access := []
  deriving DecidableEq, Repr

/-- The level whose keys protect a packet of the given type; none for a Retry. -/
def LongType.level : LongType → Option EncryptionLevel
  | .initial => some .initial
  | .zeroRtt => some .earlyData
  | .handshake => some .handshake
  | .retry => none

/-- Remove header protection: the packet, the length of its packet number, and that number as sent.
-/
def unmaskHeader (mask : Fin 5 → UInt8) (firstMask : UInt8) (pnOffset : Nat) (pkt : Bytes) :
    Bytes × Nat × Nat :=
  let pkt := xorAt pkt 0 [mask 0 &&& firstMask]
  let pnLen := (pkt.headD 0 &&& 0x03).toNat + 1
  let pkt := xorAt pkt pnOffset ([mask 1, mask 2, mask 3, mask 4].take pnLen)
  (pkt, pnLen, beNat ((pkt.drop pnOffset).take pnLen))

namespace Connection

/-- From the unmasked header on: the ciphertext bounds and the AEAD. -/
def openLongBody (env : Env) (sp : Space) (level : EncryptionLevel) (pkt : Bytes)
    (pnOffset pnLen pn length cursor : Nat) : LongResult × List Access :=
  let headerLen := Word64.add pnOffset pnLen
  let ctLen := Word64.sub length pnLen
  let tagLen := aeadTagLength sp.aead
  if Word64.add headerLen ctLen > pkt.length ∨ ctLen < tagLen then
    (.skip cursor, [.sub length pnLen])
  else
    let ptLen := Word64.sub ctLen tagLen
    let reads := [Access.bytes 0 headerLen, .bytes headerLen ptLen, .bytes (headerLen + ptLen) tagLen]
    let accesses := [.sub length pnLen, .sub ctLen tagLen] ++ reads
    if ∃ a ∈ reads, ¬ a.Ok pkt.length then (.fault, accesses)
    else
      match sp.recvCtx.openInplace env.toCrypto (makeAeadNonce sp.recvKeys.iv pn)
        (pkt.take headerLen) ((pkt.drop headerLen).take ptLen)
        ((pkt.drop (headerLen + ptLen)).take tagLen) with
      | none => (.skip cursor, accesses)
      | some payload => (.opened level pn payload cursor, accesses)

/-- A packet carved out of the datagram, from the sample on. -/
def openCarved (env : Env) (sp : Space) (level : EncryptionLevel) (pkt : Bytes)
    (pnOffset length cursor : Nat) : LongResult × List Access :=
  if Word64.add (Word64.add pnOffset 4) kSampleLen > pkt.length then (.skip cursor, [])
  else
    let sample := Access.bytes (pnOffset + 4) kSampleLen
    if ¬ sample.Ok pkt.length then (.fault, [sample])
    else
      let mask := env.headerProtectionMask sp.aead sp.recvKeys.hp
        ((pkt.drop (pnOffset + 4)).take kSampleLen)
      let (pkt, pnLen, trunc) := unmaskHeader mask 0x0f pnOffset pkt
      let pn := decodePacketNumber (if sp.anyRecv then sp.largestRecvPn else 0) trunc (pnLen * 8)
      let (result, accesses) := openLongBody env sp level pkt pnOffset pnLen pn length cursor
      (result, [sample, .bytes 0 1, .bytes pnOffset pnLen] ++ accesses)

/-- `process_long_packet` up to the frames. A level without keys returns `cursor - off` after
`off = cursor`, which is 0. -/
def openLongPacket (c : Connection) (env : Env) (datagram : Bytes) (off : Nat) : LongPacket :=
  match parseLongHeader datagram off with
  | none => { result := .abandon }
  | some (hdr, cursor) => match hdr.type.level with
    | none => { result := .abandon }
    | some level =>
      if !(c.spaces level).recvKeysReady then { result := .abandon }
      else
        let pkt := (datagram.drop off).take (cursor - off)
        let (result, accesses) := openCarved env (c.spaces level) level pkt
          (Word64.sub hdr.pnOffset off) hdr.length cursor
        { result, size := pkt.length, accesses := .sub hdr.pnOffset off :: accesses }

/-- An opened short-header packet; `update` says that it was the first of a new key phase. -/
structure ShortPacket where
  pn : Nat
  payload : Bytes
  update : Bool
  deriving DecidableEq, Repr

/-- `process_short_packet` up to the frames; `none` where it returns false. -/
def openShortPacket (c : Connection) (env : Env) (dg : Bytes) : Option ShortPacket :=
  let sp := c.spaces .application
  let pnOffset := 1 + c.scid.length
  if !sp.recvKeysReady || dg.length < pnOffset + 4 + 16 then none
  else
    let mask := env.headerProtectionMask sp.aead sp.recvKeys.hp
      ((dg.drop (pnOffset + 4)).take kSampleLen)
    let (dg, pnLen, truncated) := unmaskHeader mask 0x1f pnOffset dg
    let peerKp := (dg.headD 0 >>> 2) &&& 0x01 == 1
    let pn := decodePacketNumber (if sp.anyRecv then sp.largestRecvPn else 0) truncated (pnLen * 8)
    let headerLen := pnOffset + pnLen
    let ctLen := dg.length - headerLen
    let tagLen := aeadTagLength sp.aead
    if ctLen < tagLen then none
    else
      let ptLen := ctLen - tagLen
      let openWith (ctx : CipherCtx) (keys : PacketKeys) : Option Bytes :=
        ctx.openInplace env.toCrypto (makeAeadNonce keys.iv pn) (dg.take headerLen)
          ((dg.drop headerLen).take ptLen) ((dg.drop (headerLen + ptLen)).take tagLen)
      if peerKp = sp.recvKeyPhase then
        (openWith sp.recvCtx sp.recvKeys).map fun payload => { pn, payload, update := false }
      else if !sp.nextKeysReady then none
      else
        (openWith sp.nextRecvCtx sp.nextRecvKeys).map fun payload => { pn, payload, update := true }

/-- The state after a long-header packet has been opened: a Handshake packet validates the peer's
address. -/
def longOpened (c : Connection) (level : EncryptionLevel) (pn : Nat) : Connection :=
  { c with
    spaces := Function.update c.spaces level ((c.spaces level).noteOpened pn)
    peerAddressValidated := c.peerAddressValidated || level = .handshake }

def shortOpened (c : Connection) (env : Env) (p : ShortPacket) : Connection :=
  let sp := c.spaces .application
  let sp := if p.update then sp.commitRecv env.toCrypto else sp
  c.setSpace .application (sp.noteOpened p.pn)

def received (c : Connection) (level : EncryptionLevel) (pn : Nat) : Connection :=
  let sp := c.spaces level
  c.setSpace level { sp with acks := sp.acks.onReceived pn true }

def installLevelKeys (env : Env) (c : Connection) (level : EncryptionLevel) : Connection :=
  c.setSpace level <|
    (((c.spaces level).installRecv env.toCrypto level c.tls.negotiatedAead
        (c.tls.readSecret level)).installSend env.toCrypto level c.tls.negotiatedAead
      (c.tls.writeSecret level)).prepareNext env.toCrypto level

def installNewKeys (c : Connection) (env : Env) : Connection :=
  [EncryptionLevel.handshake, .application].foldl (installLevelKeys env) c

/-- Start a key update; false while no keys are prepared or an update is in flight. -/
def initiateKeyUpdate (c : Connection) (env : Env) : Bool × Connection :=
  let sp := c.spaces .application
  if !sp.nextKeysReady || sp.sendKeyPhase != sp.recvKeyPhase then (false, c)
  else (true, c.setSpace .application (sp.rotateSend env.toCrypto))

end Connection

end Spaznet.Quic
