import Mathlib.Data.Nat.ModEq
import Spaznet.Lib.BigEndian
import Spaznet.Quic.Connection.Open
import Spaznet.Quic.Connection.Send

/-!
# A protected 1-RTT packet at the receiver

Header protection comes off again: the receiver finds the sample, the first byte and the packet
number as the sender wrote them, and hands header, ciphertext and tag to the keys that the key-phase
bit selects.
-/

namespace Spaznet.Quic

open List

variable (b m : UInt8) (bs : Bytes) (mask : Fin 5 → UInt8) (phase : Bool)

/-! ## Masks -/

theorem xor_xor_cancel (a m : UInt8) : (a ^^^ m) ^^^ m = a := by
  rw [UInt8.xor_assoc, UInt8.xor_self, UInt8.xor_zero]

theorem xorAt_append (as bs ms : Bytes) : xorAt (as ++ bs) as.length ms = as ++ xorFront bs ms := by
  unfold xorAt
  rw [take_left, drop_left]

theorem xorAt_cons_zero : xorAt (b :: bs) 0 [m] = (b ^^^ m) :: bs := by
  cases bs <;> rfl

theorem xorFront_four (a b c d m₁ m₂ m₃ m₄ : UInt8) (rest : Bytes) :
    xorFront ([a, b, c, d] ++ rest) [m₁, m₂, m₃, m₄] =
      [a ^^^ m₁, b ^^^ m₂, c ^^^ m₃, d ^^^ m₄] ++ rest := by
  show [a ^^^ m₁, b ^^^ m₂, c ^^^ m₃, d ^^^ m₄] ++ xorFront rest [] = _
  cases rest <;> rfl

/-! ## Packet numbers -/

theorem beNat_encodePn (pn : Nat) : beNat (encodePn pn) = pn % 2 ^ 32 :=
  BigEndian.decode_encode 4 pn

/-! ## Headers -/

section
variable (firstMask : UInt8) (hd : Bytes) (pn : Nat) (body : Bytes)

theorem maskHeader_eq : maskHeader mask firstMask (1 + hd.length) (b :: hd ++ encodePn pn ++ body) =
    (b ^^^ (mask 0 &&& firstMask)) :: hd ++ ([pnByte pn 3 ^^^ mask 1, pnByte pn 2 ^^^ mask 2,
      pnByte pn 1 ^^^ mask 3, pnByte pn 0 ^^^ mask 4] ++ body) := by
  have hlen : 1 + hd.length = ((b ^^^ (mask 0 &&& firstMask)) :: hd).length := by
    rw [length_cons, Nat.add_comm]
  unfold maskHeader
  rw [append_assoc, cons_append, xorAt_cons_zero, ← cons_append, hlen, xorAt_append, encodePn,
    xorFront_four]

theorem drop_maskHeader : (maskHeader mask firstMask (1 + hd.length)
    (b :: hd ++ encodePn pn ++ body)).drop (1 + hd.length + 4) = body := by
  rw [maskHeader_eq, ← append_assoc]
  exact drop_left' (by simp; omega)

/-- What the receiver reads off a masked packet whose first byte announces four bytes. -/
theorem unmaskHeader_maskHeader (hlow : (b &&& 0x03).toNat + 1 = 4) :
    unmaskHeader mask firstMask (1 + hd.length)
        (maskHeader mask firstMask (1 + hd.length) (b :: hd ++ encodePn pn ++ body)) =
      (b :: hd ++ encodePn pn ++ body, 4, pn % 2 ^ 32) := by
  rw [maskHeader_eq]
  set masked := [pnByte pn 3 ^^^ mask 1, pnByte pn 2 ^^^ mask 2, pnByte pn 1 ^^^ mask 3,
    pnByte pn 0 ^^^ mask 4] ++ body with hmasked
  have hfirst : xorAt ((b ^^^ (mask 0 &&& firstMask)) :: hd ++ masked) 0 [mask 0 &&& firstMask] =
      b :: hd ++ masked :=
    (xorAt_cons_zero _ _ _).trans (by rw [xor_xor_cancel]; rfl)
  have hlen : 1 + hd.length = (b :: hd).length := by
    rw [length_cons, Nat.add_comm]
  have hpn : xorFront masked [mask 1, mask 2, mask 3, mask 4] = encodePn pn ++ body := by
    rw [xorFront_four, xor_xor_cancel, xor_xor_cancel, xor_xor_cancel, xor_xor_cancel]
    rfl
  have hpkt : xorAt (b :: hd ++ masked) (1 + hd.length) [mask 1, mask 2, mask 3, mask 4] =
      b :: hd ++ encodePn pn ++ body := by
    rw [hlen, xorAt_append, hpn]
    exact (append_assoc ..).symm
  have hnumber : ((b :: hd ++ encodePn pn ++ body).drop (1 + hd.length)).take 4 = encodePn pn := by
    rw [append_assoc, hlen, drop_left]
    rfl
  unfold unmaskHeader
  rw [hfirst]
  have hhead : (b :: hd ++ masked).headD 0 = b := rfl
  have hall : [mask 1, mask 2, mask 3, mask 4].take 4 = [mask 1, mask 2, mask 3, mask 4] := rfl
  dsimp only
  rw [hhead, hlow, hall, hpkt, hnumber, beNat_encodePn]

theorem length_header : (b :: hd ++ encodePn pn).length = 1 + hd.length + 4 := by
  rw [length_append, length_cons, Nat.add_comm hd.length]
  rfl

/-- A packet as it leaves the sender: header, ciphertext and tag under a mask. -/
theorem protectPacket_eq {keys : PacketKeys}
    (h : protectPacket y aead keys firstMask sealPayload (b :: hd) payload pn = some pkt) :
    ∃ ct tag, sealPayload (makeAeadNonce keys.iv pn) (b :: hd ++ encodePn pn) payload =
        some (ct, tag) ∧
      pkt = maskHeader (y.headerProtectionMask aead keys.hp ((ct ++ tag).take kSampleLen)) firstMask
        (1 + hd.length) (b :: hd ++ encodePn pn ++ (ct ++ tag)) := by
  simp only [protectPacket, Option.bind_eq_bind, Option.bind_eq_some_iff, Prod.exists,
    Option.some.injEq] at h
  obtain ⟨ct, tag, hseal, rfl⟩ := h
  have hsample : (b :: hd ++ encodePn pn ++ (ct ++ tag)).drop (1 + hd.length + 4) = ct ++ tag :=
    drop_left' (length_header b hd pn)
  refine ⟨ct, tag, hseal, ?_⟩
  rw [length_cons, Nat.add_comm hd.length, append_assoc _ ct, hsample]

end

theorem drop_protectPacket {keys : PacketKeys} (hne : header ≠ [])
    (h : protectPacket y aead keys firstMask sealPayload header payload pn = some pkt) :
    ∃ ct tag, sealPayload (makeAeadNonce keys.iv pn) (header ++ encodePn pn) payload =
        some (ct, tag) ∧ pkt.drop (header.length + 4) = ct ++ tag := by
  obtain ⟨b, hd, rfl⟩ := exists_cons_of_ne_nil hne
  obtain ⟨ct, tag, hseal, rfl⟩ := protectPacket_eq _ _ _ _ h
  rw [length_cons, Nat.add_comm hd.length]
  exact ⟨ct, tag, hseal, drop_maskHeader ..⟩

theorem slices_of_length {head tag : Bytes} (ct : Bytes) (hhead : head.length = n) (htag : tag.length = 16) :
    (head ++ (ct ++ tag)).take n = head ∧ ((head ++ (ct ++ tag)).drop n).take ct.length = ct ∧
      ((head ++ (ct ++ tag)).drop (n + ct.length)).take 16 = tag := by
  subst hhead
  rw [take_left, ← drop_drop, drop_left, take_left, drop_left, ← htag, take_length]
  exact ⟨rfl, rfl, rfl⟩

/-! ## Short headers -/

def shortFirstByte (phase : Bool) : UInt8 :=
  (0x40 : UInt8) ||| ((if phase then (1 : UInt8) else 0) <<< 2) ||| 3

def shortPacketBytes (phase : Bool) (dcid : Bytes) (pn : Nat) (body : Bytes) : Bytes :=
  shortFirstByte phase :: dcid ++ encodePn pn ++ body

namespace Connection

theorem buildPacket_application {c : Connection}
    (h : c.buildPacket env .application payload pn = some (some pkt)) :
    let sp := c.spaces .application
    ∃ ct tag, sp.sendCtx.sealInplace env.toCrypto (makeAeadNonce sp.sendKeys.iv pn)
        (shortFirstByte sp.sendKeyPhase :: c.dcid ++ encodePn pn) payload = some (ct, tag) ∧
      pkt = maskHeader (env.headerProtectionMask sp.aead sp.sendKeys.hp ((ct ++ tag).take kSampleLen))
        0x1f (1 + c.dcid.length) (shortPacketBytes sp.sendKeyPhase c.dcid pn (ct ++ tag)) :=
  protectPacket_eq _ _ _ _ (Option.some.inj h)

/-- The packet number that the receiver reconstructs from four bytes. -/
def reconstruct (d : Connection) (pn : Nat) : Nat :=
  let sp := d.spaces .application
  decodePacketNumber (if sp.anyRecv then sp.largestRecvPn else 0) (pn % 2 ^ 32) 32

/-- What the receiver does with a masked packet under its own header-protection key. -/
theorem openShortPacket_masked (d : Connection) (env : Env) (phase : Bool) (dcid : Bytes) (pn : Nat)
    (ct tag : Bytes) (hready : (d.spaces .application).recvKeysReady = true)
    (hcid : d.scid.length = dcid.length) (htag : tag.length = 16) :
    let sp := d.spaces .application
    let openWith (ctx : CipherCtx) (keys : PacketKeys) : Option Bytes :=
      ctx.openInplace env.toCrypto (makeAeadNonce keys.iv (d.reconstruct pn))
        (shortFirstByte phase :: dcid ++ encodePn pn) ct tag
    d.openShortPacket env (maskHeader
        (env.headerProtectionMask sp.aead sp.recvKeys.hp ((ct ++ tag).take kSampleLen)) 0x1f
        (1 + dcid.length) (shortPacketBytes phase dcid pn (ct ++ tag))) =
      if phase = sp.recvKeyPhase then
        (openWith sp.recvCtx sp.recvKeys).map fun payload =>
          { pn := d.reconstruct pn, payload, update := false }
      else if !sp.nextKeysReady then none
      else
        (openWith sp.nextRecvCtx sp.nextRecvKeys).map fun payload =>
          { pn := d.reconstruct pn, payload, update := true } := by
  have hhead := length_header (shortFirstByte phase) dcid pn
  obtain ⟨hheader, hct, htagb⟩ := slices_of_length ct hhead htag
  have hlen : (shortPacketBytes phase dcid pn (ct ++ tag)).length =
      1 + dcid.length + 4 + (ct.length + 16) := by
    unfold shortPacketBytes
    rw [length_append, hhead, length_append, htag]
  set mask := env.headerProtectionMask (d.spaces .application).aead
    (d.spaces .application).recvKeys.hp ((ct ++ tag).take kSampleLen)
  have hdrop : (maskHeader mask 0x1f (1 + dcid.length) (shortPacketBytes phase dcid pn
      (ct ++ tag))).drop (1 + dcid.length + 4) = ct ++ tag := drop_maskHeader ..
  have hunmask : unmaskHeader mask 0x1f (1 + dcid.length) (maskHeader mask 0x1f (1 + dcid.length)
      (shortPacketBytes phase dcid pn (ct ++ tag))) =
        (shortPacketBytes phase dcid pn (ct ++ tag), 4, pn % 2 ^ 32) :=
    unmaskHeader_maskHeader _ _ _ _ _ _ (by cases phase <;> rfl)
  unfold openShortPacket
  dsimp only
  rw [hcid, hready, length_maskHeader, hlen, hdrop, hunmask]
  have hnot : ¬ ((!true || decide (1 + dcid.length + 4 + (ct.length + 16) <
      1 + dcid.length + 4 + 16)) = true) := by simp
  have hctLen : (shortPacketBytes phase dcid pn (ct ++ tag)).length - (1 + dcid.length + 4) =
      ct.length + 16 := by omega
  have hpt : ct.length + 16 - aeadTagLength (d.spaces .application).aead = ct.length :=
    Nat.add_sub_cancel ..
  have hkp : (((shortPacketBytes phase dcid pn (ct ++ tag)).headD 0 >>> 2) &&& 0x01 == 1) = phase := by
    show (shortFirstByte phase >>> 2 &&& 0x01 == 1) = phase
    cases phase <;> rfl
  rw [if_neg hnot, hctLen, hpt, hkp, shortPacketBytes, hheader, hct, aeadTagLength, htagb]
  rfl

end Connection

end Spaznet.Quic
