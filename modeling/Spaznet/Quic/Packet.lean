import Spaznet.Quic.Crypto

/-!
# Packet headers and packet construction

`parseLongHeader` reads the unprotected part of a long header at an offset of a datagram;
`buildInitialPacket` and `buildInplacePacket` assemble, seal and mask outgoing packets.
-/

namespace Spaznet.Quic

open List Option Option VarInt UInt8

def kQuicV1 : Nat := 1
def kMaxConnectionIdLen : Nat := 20
def kSampleLen : Nat := 16

inductive LongType where
  | initial
  | zeroRtt
  | handshake
  | retry
  deriving DecidableEq, Repr

/-- Bits 4 and 5 of the first byte. -/
def LongType.ofFirst (first : UInt8) : LongType :=
  match ((first &&& 0x30) >>> 4).toNat with
  | 0 => .initial
  | 1 => .zeroRtt
  | 2 => .handshake
  | _ => .retry

structure LongHeader where
  type : LongType
  version : Nat
  dcid : Bytes
  scid : Bytes
  token : Bytes := []
  length : Nat := 0
  /-- Offset of the protected packet number, from the start of the datagram. -/
  pnOffset : Nat := 0
  packetLen : Nat := 0
  deriving DecidableEq, Repr

def beNat (bs : Bytes) : Nat := bs.foldl (fun acc b => acc * 256 + b.toNat) 0

def readConnectionId (datagram : Bytes) (off : Nat) : Option (Bytes × Nat) := do
  let len ← datagram[off]?
  let len := len.toNat
  if len > kMaxConnectionIdLen ∨ off + 1 + len > datagram.length then none
  else some ((datagram.drop (off + 1)).take len, off + 1 + len)

/-- The token of an Initial packet; other types have none. -/
def readToken (datagram : Bytes) (type : LongType) (off : Nat) : Option (Bytes × Nat) :=
  if type = .initial then do
    let (tokenLen, off) ← decode datagram off
    if off + tokenLen > datagram.length then none
    else some ((datagram.drop off).take tokenLen, off + tokenLen)
  else some ([], off)

/-- What follows the connection ids: nothing in Version Negotiation, the token and integrity tag in
a Retry, otherwise token, length and the protected rest. -/
def parseLongTail (datagram : Bytes) (start off : Nat) (hdr : LongHeader) :
    Option (LongHeader × Nat) :=
  if hdr.version = 0 then
    some ({ hdr with packetLen := datagram.length - start }, datagram.length)
  else if hdr.type = .retry then
    if datagram.length < off + 16 then none
    else some ({ hdr with
      token := (datagram.drop off).take (datagram.length - 16 - off)
      packetLen := datagram.length - start }, datagram.length)
  else do
    let (token, off) ← readToken datagram hdr.type off
    let (length, off) ← decode datagram off
    if off + length > datagram.length then none
    else some ({ hdr with token, length, pnOffset := off, packetLen := off - start + length },
      off + length)

/-- The header at `start` and the offset of the next coalesced packet. -/
def parseLongHeader (datagram : Bytes) (start : Nat) : Option (LongHeader × Nat) := do
  let first ← datagram[start]?
  if first &&& 0x80 = 0 then none
  else if start + 1 + 4 > datagram.length then none
  else
    let version := beNat ((datagram.drop (start + 1)).take 4)
    let (dcid, off) ← readConnectionId datagram (start + 1 + 4)
    let (scid, off) ← readConnectionId datagram off
    parseLongTail datagram start off { type := .ofFirst first, version, dcid, scid }

/-! ## Protection -/

def xorFront : Bytes → Bytes → Bytes
  | b :: bs, m :: ms => (b ^^^ m) :: xorFront bs ms
  | bs, _ => bs

def xorAt (bs : Bytes) (off : Nat) (ms : Bytes) : Bytes := bs.take off ++ xorFront (bs.drop off) ms

def pnByte (pn i : Nat) : UInt8 := ofNat (pn >>> (8 * i))

theorem pnByte_toNat (pn i : Nat) : (pnByte pn i).toNat = pn / 256 ^ i % 256 := by
  unfold pnByte
  rw [toNat_ofNat', Nat.shiftRight_eq_div_pow, Nat.pow_mul]

def makeAeadNonce (iv : Bytes) (pn : Nat) : Bytes :=
  (xorFront iv.reverse ((List.range 8).map (pnByte pn))).reverse

/-- Reconstruct the full packet number closest to the expected one. -/
def decodePacketNumber (largestPn truncatedPn pnNbits : Nat) : Nat :=
  let expectedPn := largestPn + 1
  let pnWin := 2 ^ pnNbits
  let pnHwin := pnWin / 2
  let candidatePn := expectedPn / pnWin * pnWin + truncatedPn
  if expectedPn > pnHwin ∧ candidatePn ≤ expectedPn - pnHwin ∧ candidatePn < 2 ^ 62 - pnWin then
    candidatePn + pnWin
  else if candidatePn > expectedPn + pnHwin ∧ candidatePn ≥ pnWin then candidatePn - pnWin
  else candidatePn

/-- Outgoing packet numbers take four bytes. -/
def encodePn (pn : Nat) : Bytes := [pnByte pn 3, pnByte pn 2, pnByte pn 1, pnByte pn 0]

/-- Mask the first byte and the four packet-number bytes. -/
def maskHeader (mask : Fin 5 → UInt8) (firstMask : UInt8) (pnOffset : Nat) (pkt : Bytes) : Bytes :=
  xorAt (xorAt pkt 0 [mask 0 &&& firstMask]) pnOffset [mask 1, mask 2, mask 3, mask 4]

def longFirstByte (type : UInt8) : UInt8 :=
  (0x80 : UInt8) ||| (0x40 : UInt8) ||| (type <<< 4) ||| (3 : UInt8)

def longHeaderBytes (type : UInt8) (dcid scid : Bytes) : Bytes :=
  [longFirstByte type, 0, 0, 0, ofNat kQuicV1] ++
    (ofNat dcid.length :: dcid) ++ (ofNat scid.length :: scid)

/-- Append packet number, sealed payload and tag to a header, then mask it. -/
def protectPacket (y : Crypto) (aead : Aead) (keys : PacketKeys) (firstMask : UInt8)
    (sealPayload : (nonce aad body : Bytes) → Option (Bytes × Bytes)) (header payload : Bytes)
    (pn : Nat) : Option Bytes := do
  let head := header ++ encodePn pn
  let (ct, tag) ← sealPayload (makeAeadNonce keys.iv pn) head payload
  let pkt := head ++ ct ++ tag
  let sample := (pkt.drop (header.length + 4)).take kSampleLen
  some (maskHeader (y.headerProtectionMask aead keys.hp sample) firstMask header.length pkt)

/-- `none` where the code throws: a length that does not fit, or a failed seal. The sample always
fits, as payload and tag hold at least sixteen bytes. -/
def buildInitialPacket (y : Crypto) (aead : Aead) (keys : PacketKeys) (dcid scid token : Bytes)
    (payload : Bytes) (pn : Nat) : Option Bytes := do
  let tokenLen ← encode token.length
  let length ← encode (4 + payload.length + aeadTagLength aead)
  protectPacket y aead keys 0x0f (y.aeadSeal aead keys.key)
    (longHeaderBytes 0 dcid scid ++ tokenLen ++ token ++ length) payload pn

/-! ## Lengths -/

@[simp] theorem length_xorFront (bs ms : Bytes) : (xorFront bs ms).length = bs.length := by
  induction bs generalizing ms with
  | nil => cases ms <;> rfl
  | cons b bs ih => cases ms <;> simp [xorFront, ih]

@[simp] theorem length_xorAt (bs : Bytes) (off : Nat) (ms : Bytes) :
    (xorAt bs off ms).length = bs.length := by
  simp only [xorAt, length_append, length_take, length_xorFront, length_drop]
  omega

@[simp] theorem length_maskHeader (mask : Fin 5 → UInt8) (firstMask : UInt8) (pnOffset : Nat)
    (pkt : Bytes) : (maskHeader mask firstMask pnOffset pkt).length = pkt.length := by
  simp [maskHeader]

theorem length_protectPacket
    (hseal : ∀ {nonce aad body ct tag}, sealPayload nonce aad body = some (ct, tag) →
      ct.length = body.length ∧ tag.length = 16)
    (h : protectPacket y aead ks firstMask sealPayload header payload pn = some pkt) :
    pkt.length = header.length + 4 + payload.length + 16 := by
  simp only [protectPacket, bind_eq_bind, bind_eq_some_iff, Prod.exists,
    some.injEq] at h
  obtain ⟨ct, tag, hs, rfl⟩ := h
  obtain ⟨hct, htag⟩ := hseal hs
  simp only [length_maskHeader, length_append, encodePn, length_cons, length_nil,
    hct, htag]

theorem length_buildInitialPacket
    (h : buildInitialPacket y aead ks dcid scid token payload pn = some pkt) :
    ∃ tokenLen length, encode token.length = some tokenLen ∧
      encode (4 + payload.length + 16) = some length ∧
      pkt.length = 7 + dcid.length + scid.length + tokenLen.length + token.length + length.length +
        4 + payload.length + 16 := by
  simp only [buildInitialPacket, bind_eq_bind, bind_eq_some_iff] at h
  obtain ⟨tokenLen, htoken, length, hlength, h⟩ := h
  refine ⟨tokenLen, length, htoken, hlength, ?_⟩
  rw [length_protectPacket (fun hs => y.length_aeadSeal hs) h]
  simp [longHeaderBytes]
  omega

/-! ## What the header parser guarantees -/

theorem readConnectionId_spec (h : readConnectionId datagram off = some (cid, stop)) :
    off < stop ∧ stop ≤ datagram.length := by
  simp only [readConnectionId, bind_eq_bind, bind_eq_some_iff,
    ite_none_left_eq_some, some.injEq, Prod.mk.injEq] at h
  obtain ⟨len, hlen, hle, -, rfl⟩ := h
  omega

theorem readToken_spec (h : readToken datagram type off = some (token, stop))
    (hoff : off ≤ datagram.length) : off ≤ stop ∧ stop ≤ datagram.length := by
  unfold readToken at h
  split at h
  · simp only [bind_eq_bind, bind_eq_some_iff, Prod.exists,
      ite_none_left_eq_some, some.injEq, Prod.mk.injEq] at h
    obtain ⟨tokenLen, off', hdec, hle, -, rfl⟩ := h
    have hlt := decode_spec hdec
    omega
  · obtain ⟨-, rfl⟩ := Prod.mk.inj (some.inj h)
    omega

/-- A parsed header is one of three kinds. Version Negotiation and Retry take the rest of the
datagram and have no packet number; any other packet ends `length` bytes after its packet-number
offset, which lies past the start. -/
structure LongHeader.Parsed (datagram : Bytes) (start : Nat) (hdr : LongHeader) (cursor : Nat) :
    Prop where
  start_lt : start < cursor
  cursor_le : cursor ≤ datagram.length
  unnumbered : hdr.version = 0 ∨ hdr.type = .retry →
    hdr.pnOffset = 0 ∧ hdr.length = 0 ∧ cursor = datagram.length
  numbered : hdr.version ≠ 0 → hdr.type ≠ .retry →
    start < hdr.pnOffset ∧ cursor = hdr.pnOffset + hdr.length

theorem parseLongTail_parsed (hstart : start < off) (hoff : off ≤ datagram.length)
    (hpn : hdr.pnOffset = 0) (hlen : hdr.length = 0)
    (h : parseLongTail datagram start off hdr = some (hdr', cursor)) :
    LongHeader.Parsed datagram start hdr' cursor ∧ hdr'.version = hdr.version ∧
      hdr'.type = hdr.type := by
  unfold parseLongTail at h
  split at h
  next hv =>
    obtain ⟨rfl, rfl⟩ := Prod.mk.inj (some.inj h)
    exact ⟨⟨by omega, le_rfl, fun _ => ⟨hpn, hlen, rfl⟩, fun hne => (hne hv).elim⟩, rfl, rfl⟩
  next hv =>
    split at h
    next hr =>
      simp only [ite_none_left_eq_some, some.injEq, Prod.mk.injEq] at h
      obtain ⟨hle, rfl, rfl⟩ := h
      exact ⟨⟨by omega, le_rfl, fun _ => ⟨hpn, hlen, rfl⟩, fun _ hne => (hne hr).elim⟩, rfl, rfl⟩
    next hr =>
      simp only [bind_eq_bind, bind_eq_some_iff, Prod.exists,
        ite_none_left_eq_some, some.injEq, Prod.mk.injEq] at h
      obtain ⟨token, off₁, htoken, length, off₂, hdec, hle, rfl, rfl⟩ := h
      have htok := readToken_spec htoken hoff
      have hvar := decode_spec hdec
      refine ⟨⟨by omega, by omega, fun h => ?_, fun _ _ => ⟨?_, rfl⟩⟩, rfl, rfl⟩
      · exact (h.elim hv hr).elim
      · show start < off₂
        omega

section
variable (h : parseLongHeader datagram start = some (hdr, cursor))
include h

/-- The steps of a header that was parsed, up to its tail. -/
theorem parseLongHeader_cases :
    ∃ first dcid scid off₁ off₂, datagram[start]? = some first ∧ first &&& 0x80 ≠ 0 ∧
      start + 1 + 4 ≤ datagram.length ∧
      readConnectionId datagram (start + 1 + 4) = some (dcid, off₁) ∧
      readConnectionId datagram off₁ = some (scid, off₂) ∧ start < off₂ ∧ off₂ ≤ datagram.length ∧
      parseLongTail datagram start off₂ ⟨.ofFirst first, beNat ((datagram.drop (start + 1)).take 4),
        dcid, scid, [], 0, 0, 0⟩ = some (hdr, cursor) := by
  simp only [parseLongHeader, bind_eq_bind, bind_eq_some_iff, Prod.exists,
    ite_none_left_eq_some] at h
  obtain ⟨first, hfirst, hlong, hroom, dcid, off₁, hd, scid, off₂, hs, h⟩ := h
  have h₁ := readConnectionId_spec hd
  have h₂ := readConnectionId_spec hs
  exact ⟨first, dcid, scid, off₁, off₂, hfirst, hlong, by omega, hd, hs, by omega, h₂.2, h⟩

theorem parseLongHeader_parsed : LongHeader.Parsed datagram start hdr cursor := by
  obtain ⟨first, dcid, scid, off₁, off₂, -, -, -, -, -, hlt, hle, h⟩ := parseLongHeader_cases h
  exact (parseLongTail_parsed hlt hle rfl rfl h).1

end

/-! ## A packet inside a datagram -/

variable (front rest : Bytes)

theorem getElem?_inside (p rest : Bytes) (h : off < p.length) :
    (front ++ (p ++ rest))[front.length + off]? = p[off]? := by
  rw [getElem?_append_right (by omega), Nat.add_sub_cancel_left, getElem?_append_left h]

theorem take_drop_inside (p rest : Bytes) (off n : Nat) (h : off + n ≤ p.length) :
    ((front ++ (p ++ rest)).drop (front.length + off)).take n = (p.drop off).take n := by
  rw [drop_length_add_append, drop_append_of_le_length (by omega),
    take_append_of_le_length (by rw [length_drop]; omega)]

theorem VarInt.decode_inside (h : decode p off = some (value, stop)) :
    decode (front ++ (p ++ rest)) (front.length + off) = some (value, front.length + stop) := by
  unfold decode at h
  split at h
  · cases h
  next first hfirst =>
    have hoff := (List.getElem?_eq_some_iff.1 hfirst).1
    dsimp only at h
    split at h
    · cases h
    next hsize =>
      obtain ⟨rfl, rfl⟩ := Prod.mk.inj (some.inj h)
      have hbytes := take_drop_inside front p rest (off + 1)
        (1 <<< (first >>> 6).toNat - 1) (by omega)
      unfold decode
      simp only [getElem?_inside front p rest hoff, hfirst]
      rw [if_neg (by simp only [length_append]; omega), Nat.add_assoc, hbytes, Nat.add_assoc]

theorem readConnectionId_inside
    (h : readConnectionId p off = some (cid, stop)) :
    readConnectionId (front ++ (p ++ rest)) (front.length + off) =
      some (cid, front.length + stop) := by
  simp only [readConnectionId, bind_eq_bind, bind_eq_some_iff,
    ite_none_left_eq_some, some.injEq, Prod.mk.injEq] at h
  obtain ⟨len, hlen, hle, rfl, rfl⟩ := h
  have hoff := (List.getElem?_eq_some_iff.1 hlen).1
  have hbytes := take_drop_inside front p rest (off + 1) len.toNat (by omega)
  simp only [readConnectionId, getElem?_inside front p rest hoff, hlen, bind_eq_bind,
    bind_some]
  rw [if_neg (by simp only [length_append]; omega), Nat.add_assoc, hbytes]
  simp only [Nat.add_assoc]

theorem readToken_inside (h : readToken p type off = some (token, stop)) :
    readToken (front ++ (p ++ rest)) type (front.length + off) =
      some (token, front.length + stop) := by
  unfold readToken at h ⊢
  split at h
  next htype =>
    simp only [bind_eq_bind, bind_eq_some_iff, Prod.exists,
      ite_none_left_eq_some, some.injEq, Prod.mk.injEq] at h
    obtain ⟨tokenLen, off', hdec, hle, rfl, rfl⟩ := h
    have hbytes := take_drop_inside front p rest off' tokenLen (by omega)
    simp only [if_pos htype, decode_inside front rest hdec, bind_eq_bind,
      bind_some]
    rw [if_neg (by simp only [length_append]; omega), hbytes, Nat.add_assoc]
  next htype =>
    obtain ⟨rfl, rfl⟩ := Prod.mk.inj (some.inj h)
    rw [if_neg htype]

theorem parseLongTail_inside (hdr : LongHeader) (hv : hdr.version ≠ 0)
    (hr : hdr.type ≠ .retry) (h : parseLongTail p 0 off hdr = some (hdr', cursor)) :
    parseLongTail (front ++ (p ++ rest)) front.length (front.length + off) hdr =
      some ({ hdr' with pnOffset := front.length + hdr'.pnOffset }, front.length + cursor) := by
  unfold parseLongTail at h ⊢
  rw [if_neg hv, if_neg hr] at h ⊢
  simp only [bind_eq_bind, bind_eq_some_iff, Prod.exists,
    ite_none_left_eq_some, some.injEq, Prod.mk.injEq] at h
  obtain ⟨token, off₁, htoken, length, off₂, hdec, hle, rfl, rfl⟩ := h
  simp only [readToken_inside front rest htoken, decode_inside front rest hdec,
    bind_eq_bind, bind_some]
  rw [if_neg (by simp only [length_append]; omega), Nat.add_sub_cancel_left, Nat.add_assoc,
    Nat.sub_zero]

theorem parseLongHeader_first (h : parseLongHeader datagram start = some (hdr, cursor)) :
    ∃ first, datagram[start]? = some first ∧ first &&& 0x80 ≠ 0 ∧ hdr.type = .ofFirst first := by
  obtain ⟨first, _, _, _, _, hfirst, hlong, -, -, -, hlt, hle, h⟩ := parseLongHeader_cases h
  exact ⟨first, hfirst, hlong, (parseLongTail_parsed hlt hle rfl rfl h).2.2⟩

/-- A packet with a length field is parsed as if it were alone. -/
theorem parseLongHeader_inside
    (h : parseLongHeader p 0 = some (hdr, cursor)) (hv : hdr.version ≠ 0)
    (hr : hdr.type ≠ .retry) :
    parseLongHeader (front ++ (p ++ rest)) front.length =
      some ({ hdr with pnOffset := front.length + hdr.pnOffset }, front.length + cursor) := by
  obtain ⟨first, dcid, scid, off₁, off₂, hfirst, hlong, hroom, hd, hs, hlt, hle, h⟩ :=
    parseLongHeader_cases h
  obtain ⟨-, hversion, htype⟩ := parseLongTail_parsed hlt hle rfl rfl h
  have hfirst' := getElem?_inside front p rest (List.getElem?_eq_some_iff.1 hfirst).1
  have hbytes := take_drop_inside front p rest 1 4 (by omega)
  have hd' := readConnectionId_inside front rest hd
  simp only [Nat.add_zero, hfirst] at hfirst'
  simp only [parseLongHeader, hfirst', bind_eq_bind, bind_some]
  rw [if_neg hlong, if_neg (by simp only [length_append]; omega), hbytes, hd',
    bind_some, readConnectionId_inside front rest hs]
  exact parseLongTail_inside front rest _ (hversion ▸ hv) (htype ▸ hr) h

end Spaznet.Quic
