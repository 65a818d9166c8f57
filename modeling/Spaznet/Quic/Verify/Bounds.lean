import Spaznet.Quic.Connection.Plain
import Spaznet.Quic.Connection.Spaces

/-!
# Bounds in the processing of long-header packets

`process_long_packet` stays inside the carved packet, and none of its subtractions wraps, for every
packet with a packet number. A Version Negotiation header (version 0) has none: the parser leaves
`pn_offset` and `length` at 0, and the code subtracts from them all the same.
-/

namespace Spaznet.Quic

open Connection Word64

/-- The action's accesses to the carved packet are in bounds and its subtractions do not wrap. -/
def Action.InBounds (env : Env) (c : Connection) : Action → Prop
  | .longPacket datagram off =>
    ∀ a ∈ (c.openLongPacket env datagram off).accesses,
      a.Ok (c.openLongPacket env datagram off).size
  | _ => True

instance (env : Env) (c : Connection) : (a : Action) → Decidable (a.InBounds env c)
  | .longPacket _ _ => inferInstanceAs (Decidable (∀ _ ∈ _, _))
  | .noteDatagram _ | .shortPacket _ | .frameError | .frame _ _ | .received _ _ | .installKeys
  | .advanceTls | .pullCrypto | .send _ | .establish | .checkIdle | .checkPto | .retire
  | .refreshWindow | .writeStream _ _ _ | .readStream _ | .close _ _ _ _ | .markValidated
  | .keyUpdate => isTrue trivial

namespace Connection

def recvReady (c : Connection) (level : EncryptionLevel) : Bool := (c.spaces level).recvKeysReady

end Connection

/-- Where the loop over a datagram goes after a long header that it does not abandon. -/
def nextOffset (ready : EncryptionLevel → Bool) (datagram : Bytes) (off : Nat) : Option Nat := do
  let (hdr, cursor) ← parseLongHeader datagram off
  let level ← hdr.type.level
  if ready level then some cursor else none

/-- The offsets at which `on_datagram` calls `process_long_packet`. -/
def longOffsets (ready : EncryptionLevel → Bool) (datagram : Bytes) : Nat → Nat → List Nat
  | 0, _ => []
  | fuel + 1, off => match datagram[off]? with
    | none => []
    | some first =>
      if first &&& 0x80 ≠ 0 then
        off :: match nextOffset ready datagram off with
          | none => []
          | some cursor => longOffsets ready datagram fuel cursor
      else []

/-- A version 0 header whose packet the code goes on to unmask: at a later offset, or at the start
of a datagram long enough to hold a sample. -/
def Unnumbered (ready : EncryptionLevel → Bool) (datagram : Bytes) (off : Nat) : Prop :=
  (0 < off ∨ 20 ≤ datagram.length) ∧
    ((parseLongHeader datagram off).any fun p =>
      p.1.version == 0 && p.1.type.level.any ready) = true
  deriving Decidable

/-! ## One packet -/

def LongResult.next : LongResult → Option Nat
  | .abandon | .fault => none
  | .skip cursor | .opened _ _ _ cursor => some cursor

section
variable (mask : Fin 5 → UInt8) (firstMask : UInt8) (pnOffset : Nat) (pkt : Bytes)

theorem unmaskHeader_pnLen : 1 ≤ (unmaskHeader mask firstMask pnOffset pkt).2.1 ∧
      (unmaskHeader mask firstMask pnOffset pkt).2.1 ≤ 4 := by
  have hand (b : UInt8) : (b &&& 0x03).toNat ≤ 3 := by
    exact Nat.and_le_right
  exact ⟨Nat.le_add_left _ _, Nat.succ_le_succ (hand _)⟩

@[simp] theorem length_unmaskHeader : (unmaskHeader mask firstMask pnOffset pkt).1.length = pkt.length := by
  simp [unmaskHeader]

end

/-- Behind a numbered header that leaves room for the sample, the ciphertext fills the packet. -/
theorem openLongBody_eq (env : Env) (sp : Space) (level : EncryptionLevel) (pn cursor : Nat)
    (hsize : pkt.length = pnOffset + length) (hlt : pkt.length < 2 ^ 64) (hlen : 20 ≤ length)
    (hpn : pnLen ≤ 4) :
    openLongBody env sp level pkt pnOffset pnLen pn length cursor =
      (match sp.recvCtx.openInplace env.toCrypto (makeAeadNonce sp.recvKeys.iv pn)
          (pkt.take (pnOffset + pnLen)) ((pkt.drop (pnOffset + pnLen)).take (length - pnLen - 16))
          ((pkt.drop (pnOffset + pnLen + (length - pnLen - 16))).take 16) with
        | none => .skip cursor
        | some payload => .opened level pn payload cursor,
        [.sub length pnLen, .sub (length - pnLen) 16, .bytes 0 (pnOffset + pnLen),
          .bytes (pnOffset + pnLen) (length - pnLen - 16),
          .bytes (pnOffset + pnLen + (length - pnLen - 16)) 16]) := by
  have hhead : add pnOffset pnLen = pnOffset + pnLen := add_eq (by omega)
  have hct : sub length pnLen = length - pnLen := sub_eq (by omega) (by omega)
  have hpt : sub (length - pnLen) 16 = length - pnLen - 16 :=
    sub_eq (by omega) (by omega)
  have hsum : add (pnOffset + pnLen) (length - pnLen) = pkt.length := by
    rw [add_eq (by omega)]
    omega
  have hreads : ¬ ∃ a ∈ [Access.bytes 0 (pnOffset + pnLen),
      .bytes (pnOffset + pnLen) (length - pnLen - 16),
      .bytes (pnOffset + pnLen + (length - pnLen - 16)) 16], ¬ a.Ok pkt.length := by
    simp [Access.Ok]
    omega
  simp only [openLongBody, aeadTagLength, hhead, hct, hpt, hsum, if_neg hreads]
  rw [if_neg (by omega)]
  cases sp.recvCtx.openInplace .. <;> rfl

theorem openCarved_eq (env : Env) (sp : Space) (level : EncryptionLevel) (length cursor : Nat)
    (hadd : pnOffset + 20 < 2 ^ 64) (hroom : pnOffset + 20 ≤ pkt.length) :
    openCarved env sp level pkt pnOffset length cursor =
      let header := unmaskHeader (env.headerProtectionMask sp.aead sp.recvKeys.hp
        ((pkt.drop (pnOffset + 4)).take kSampleLen)) 0x0f pnOffset pkt
      let body := openLongBody env sp level header.1 pnOffset header.2.1 (decodePacketNumber
        (if sp.anyRecv then sp.largestRecvPn else 0) header.2.2 (header.2.1 * 8)) length cursor
      (body.1, [.bytes (pnOffset + 4) 16, .bytes 0 1, .bytes pnOffset header.2.1] ++ body.2) := by
  rw [openCarved, add_eq (show pnOffset + 4 < 2 ^ 64 by omega), kSampleLen,
    add_eq (by omega), if_neg (by omega), if_neg (by simp only [Access.Ok]; omega)]

theorem openCarved_of_short (hadd : pnOffset + 20 < 2 ^ 64) (hshort : pkt.length < pnOffset + 20) :
    openCarved env sp level pkt pnOffset length cursor = (.skip cursor, []) := by
  rw [openCarved, add_eq (show pnOffset + 4 < 2 ^ 64 by omega), kSampleLen,
    add_eq (by omega), if_pos (by omega)]

theorem openCarved_ok (hsize : pkt.length = pnOffset + length) (hlt : pkt.length < 2 ^ 63) :
    ∀ a ∈ (openCarved env sp level pkt pnOffset length cursor).2, a.Ok pkt.length := by
  intro a ha
  by_cases hroom : pnOffset + 20 ≤ pkt.length
  · rw [openCarved_eq env sp level length cursor (by omega) hroom] at ha
    set mask := env.headerProtectionMask sp.aead sp.recvKeys.hp
      ((pkt.drop (pnOffset + 4)).take kSampleLen)
    have hlen := length_unmaskHeader mask 0x0f pnOffset pkt
    have hpn := (unmaskHeader_pnLen mask 0x0f pnOffset pkt).2
    dsimp only at ha
    rw [openLongBody_eq _ _ _ _ _ (hlen.trans hsize) (by omega) (by omega) hpn] at ha
    simp only [List.cons_append, List.nil_append, List.mem_cons, List.not_mem_nil, or_false] at ha
    rcases ha with rfl | rfl | rfl | rfl | rfl | rfl | rfl | rfl
    all_goals
      simp only [Access.Ok]
      omega
  · rw [openCarved_of_short (by omega) (by omega)] at ha
    cases ha

/-- The packet is done with, unless an access is out of bounds. -/
theorem openLongBody_cases (env : Env) (sp : Space) (level : EncryptionLevel) (pkt : Bytes)
    (pnOffset pnLen pn length cursor : Nat) :
    let body := openLongBody env sp level pkt pnOffset pnLen pn length cursor
    .sub length pnLen ∈ body.2 ∧
      (body.1.next = some cursor ∨ body.1 = .fault ∧ ∃ a ∈ body.2, ¬ a.Ok pkt.length) := by
  dsimp only [openLongBody]
  split
  · exact ⟨by simp, .inl rfl⟩
  split
  next hreads =>
    obtain ⟨a, ha, hbad⟩ := hreads
    exact ⟨by simp, .inr ⟨rfl, a, List.mem_append_right _ ha, hbad⟩⟩
  next => split <;> exact ⟨by simp, .inl rfl⟩

theorem openCarved_cases (env : Env) (sp : Space) (level : EncryptionLevel) (pkt : Bytes)
    (pnOffset length cursor : Nat) :
    let carved := openCarved env sp level pkt pnOffset length cursor
    carved.1.next = some cursor ∨ carved.1 = .fault ∧ ∃ a ∈ carved.2, ¬ a.Ok pkt.length := by
  dsimp only [openCarved]
  split
  · exact .inl rfl
  split
  next hsample => exact .inr ⟨rfl, _, List.mem_singleton.2 rfl, hsample⟩
  next =>
    refine (openLongBody_cases ..).2.imp_right ?_
    rintro ⟨hfault, a, ha, hbad⟩
    rw [length_unmaskHeader] at hbad
    exact ⟨hfault, a, List.mem_append_right _ ha, hbad⟩

/-- A header without a packet number at the start of a datagram with a sample: `length - pn_len`
wraps. -/
theorem openCarved_not_ok (hsize : 20 ≤ pkt.length) :
    ∃ a ∈ (openCarved env sp level pkt 0 0 cursor).2, ¬ a.Ok pkt.length := by
  rw [openCarved_eq env sp level 0 cursor (by decide) hsize]
  set mask := env.headerProtectionMask sp.aead sp.recvKeys.hp ((pkt.drop (0 + 4)).take kSampleLen)
  have hpn := (unmaskHeader_pnLen mask 0x0f 0 pkt).1
  refine ⟨_, List.mem_append_right _ (openLongBody_cases ..).1, ?_⟩
  simp only [Access.Ok]
  omega

/-- **One packet.** The accesses are in bounds exactly when the header is numbered, or nothing is
read behind it. -/
theorem inBounds_iff (env : Env) (c : Connection) (hlt : datagram.length < 2 ^ 63) (off : Nat) :
    Action.InBounds env c (.longPacket datagram off) ↔ ¬ Unnumbered c.recvReady datagram off := by
  simp only [Action.InBounds, openLongPacket, Unnumbered]
  cases hparse : parseLongHeader datagram off with
  | none => simp
  | some p =>
    obtain ⟨hdr, cursor⟩ := p
    have hp := parseLongHeader_parsed hparse
    cases hlevel : hdr.type.level with
    | none => simp [hlevel]
    | some level =>
      cases hready : (c.spaces level).recvKeysReady with
      | false => simp [hlevel, recvReady, hready]
      | true =>
        have hany : ((some (hdr, cursor)).any fun p =>
            p.1.version == 0 && p.1.type.level.any c.recvReady) = true ↔ hdr.version = 0 := by
          simp [hlevel, recvReady, hready]
        rw [hany]
        have hsize : ((datagram.drop off).take (cursor - off)).length = cursor - off := by
          have := hp.cursor_le
          rw [List.length_take, List.length_drop]
          omega
        simp only [hlevel, hready, Bool.not_true, Bool.false_eq_true, if_false,
          List.forall_mem_cons, hsize]
        have hend := hp.cursor_le
        by_cases hv : hdr.version = 0
        · -- No packet number: the first subtraction wraps unless the packet starts the datagram.
          obtain ⟨hpn, hlen, hcur⟩ := hp.unnumbered (.inl hv)
          rw [hpn, hlen]
          rcases Nat.eq_zero_or_pos off with rfl | hpos
          · by_cases hshort : datagram.length < 20
            · rw [openCarved, if_pos (by rw [hsize, hcur]; exact hshort)]
              simp [Access.Ok, hshort]
            · obtain ⟨a, ha, hbad⟩ : ∃ a ∈ (openCarved env (c.spaces level) level
                  ((datagram.drop 0).take (cursor - 0)) 0 0 cursor).2,
                  ¬ a.Ok ((datagram.drop 0).take (cursor - 0)).length :=
                openCarved_not_ok (by omega)
              rw [hsize] at hbad
              exact iff_of_false (fun h => hbad (h.2 a ha)) (by simp [hv]; omega)
          · exact iff_of_false (fun h => absurd h.1 (by simp only [Access.Ok]; omega))
              (by simp [hv, hpos])
        · have hretry : hdr.type ≠ .retry := by
            rintro heq
            rw [heq] at hlevel
            cases hlevel
          obtain ⟨hpn, hcur⟩ := hp.numbered hv hretry
          refine iff_of_true ⟨by simp only [Access.Ok]; omega, fun a ha => ?_⟩ (by simp [hv])
          have hsub : sub hdr.pnOffset off = hdr.pnOffset - off :=
            sub_eq (by omega) (by omega)
          rw [← hsize]
          exact openCarved_ok (by omega) (by omega) a ha

/-! ## A whole datagram -/

/-- The actions of the receive path before keys are installed. -/
def Action.isReceive : Action → Bool
  | .noteDatagram _ | .longPacket _ _ | .frameError | .frame _ _ | .received _ _ => true
  | _ => false

theorem Connection.recvReady_perform (c : Connection) (env : Env) (h : a.isReceive = true) :
    (c.perform env a).recvReady = c.recvReady := by
  refine c.perform_rule env a (fun _ => rfl) fun _ => ?_
  funext l
  have hstep := c.spaceStep_act env a l
  show ((c.act env a).spaces l).recvKeysReady = (c.spaces l).recvKeysReady
  generalize (c.act env a).spaces l = sp at hstep
  cases hstep with
  | shortOpened | installed | pulled | sent | probed | rotated => cases h
  | _ => rfl

def Action.isLong : Action → Bool
  | .longPacket _ _ => true
  | _ => false

/-- In bounds there is no fault, and the loop goes on behind the packet. -/
theorem next_openLongPacket (h : Action.InBounds env c (.longPacket datagram off)) :
    (c.openLongPacket env datagram off).result.next = nextOffset c.recvReady datagram off := by
  simp only [Action.InBounds, openLongPacket, nextOffset] at h ⊢
  cases hparse : parseLongHeader datagram off with
  | none => rfl
  | some p =>
    obtain ⟨hdr, cursor⟩ := p
    simp only [hparse, Option.bind_eq_bind, Option.bind_some] at h ⊢
    cases hlevel : hdr.type.level with
    | none => rfl
    | some level =>
      simp only [hlevel, Option.bind_some, recvReady] at h ⊢
      by_cases hready : (c.spaces level).recvKeysReady = true
      · simp only [hready] at h ⊢
        refine (openCarved_cases ..).resolve_right ?_
        rintro ⟨-, a, ha, hbad⟩
        exact hbad (h a (List.mem_cons_of_mem _ ha))
      · simp [hready, LongResult.next]

namespace Run

def InBounds (env : Env) (r : Run) : Prop := ∀ x ∈ r.trace, x.2.InBounds env x.1
  deriving Decidable

theorem inBounds_perform (r : Run) (a : Action) :
    (r.perform env a).InBounds env ↔ a.InBounds env r.conn ∧ r.InBounds env := by
  simp [InBounds, perform]

theorem inBounds_performAll {r : Run} (h : ∀ a ∈ as, a.isLong = false) :
    (r.performAll env as).InBounds env ↔ r.InBounds env := by
  induction as generalizing r with
  | nil => exact Iff.rfl
  | cons a as ih =>
    have htriv : a.InBounds env r.conn := by
      have := h a (by simp)
      cases a <;> trivial
    exact (ih fun b hb => h b (by simp [hb])).trans ((r.inBounds_perform a).trans (by simp [htriv]))

theorem recvReady_performAll {r : Run} (h : ∀ a ∈ as, a.isReceive = true) :
    (r.performAll env as).conn.recvReady = r.conn.recvReady := by
  induction as generalizing r with
  | nil => rfl
  | cons a as ih =>
    exact (ih fun b hb => h b (by simp [hb])).trans (r.conn.recvReady_perform env (h a (by simp)))

section
variable (r : Run) (env : Env) (datagram : Bytes) (off : Nat)

theorem processLongPacket_eq : (r.processLongPacket env datagram off).1 =
        (r.conn.openLongPacket env datagram off).result.next ∧
      ∃ as, (∀ a ∈ as, a = .frameError ∨ (∃ level f, a = .frame level f) ∨
          ∃ level pn, a = .received level pn) ∧
        (r.processLongPacket env datagram off).2 =
          (r.perform env (.longPacket datagram off)).performAll env as := by
  unfold processLongPacket
  cases hresult : (r.conn.openLongPacket env datagram off).result with
  | abandon | fault | skip => exact ⟨rfl, [], by simp, rfl⟩
  | opened level pn payload cursor =>
    obtain ⟨as, has, heq⟩ :=
      (r.perform env (.longPacket datagram off)).deliverFrames_eq env level payload
    refine ⟨rfl, as ++ [.received level pn], fun a ha => ?_, ?_⟩
    · rcases List.mem_append.1 ha with ha | ha
      · rcases has a ha with rfl | ⟨-, f, -, -, rfl⟩
        · exact .inl rfl
        · exact .inr (.inl ⟨level, f, rfl⟩)
      · exact .inr (.inr ⟨level, pn, List.mem_singleton.1 ha⟩)
    · dsimp only
      rw [heq]
      rw [performAll, performAll, Machine.run_append]
      rfl

theorem inBounds_processLongPacket : (r.processLongPacket env datagram off).2.InBounds env ↔
      Action.InBounds env r.conn (.longPacket datagram off) ∧ r.InBounds env := by
  obtain ⟨-, as, has, heq⟩ := r.processLongPacket_eq env datagram off
  rw [heq, inBounds_performAll fun a ha => ?_, inBounds_perform]
  rcases has a ha with rfl | ⟨_, _, rfl⟩ | ⟨_, _, rfl⟩ <;> rfl

theorem recvReady_processLongPacket :
    (r.processLongPacket env datagram off).2.conn.recvReady = r.conn.recvReady := by
  obtain ⟨-, as, has, heq⟩ := r.processLongPacket_eq env datagram off
  rw [heq, recvReady_performAll fun a ha => ?_]
  · exact r.conn.recvReady_perform env rfl
  · rcases has a ha with rfl | ⟨_, _, rfl⟩ | ⟨_, _, rfl⟩ <;> rfl

end

theorem inBounds_processShortPacket (r : Run) (env : Env) (dg : Bytes) :
    (r.processShortPacket env dg).InBounds env ↔ r.InBounds env := by
  have hopen : (r.perform env (.shortPacket dg)).InBounds env ↔ r.InBounds env := by
    simp [inBounds_perform, Action.InBounds]
  unfold processShortPacket
  dsimp only
  split
  · exact hopen
  next p _ =>
    obtain ⟨as, has, heq⟩ :=
      (r.perform env (.shortPacket dg)).deliverFrames_eq env .application p.payload
    rw [inBounds_perform, heq, inBounds_performAll fun a ha => ?_, hopen]
    · simp [Action.InBounds]
    · rcases has a ha with rfl | ⟨-, _, -, -, rfl⟩ <;> rfl

/-- The loop over the coalesced packets visits the offsets computed from the key flags alone. -/
theorem inBounds_walkPackets (env : Env) (hlt : datagram.length < 2 ^ 63) (fuel off : Nat)
    (r : Run) :
    (walkPackets env datagram fuel off r).2.InBounds env ↔
      r.InBounds env ∧ ∀ o ∈ longOffsets r.conn.recvReady datagram fuel off,
        ¬ Unnumbered r.conn.recvReady datagram o := by
  induction fuel generalizing off r with
  | zero => simp [walkPackets, longOffsets]
  | succ fuel ih =>
    unfold walkPackets longOffsets
    cases datagram[off]? with
    | none => simp
    | some first =>
      by_cases hlong : first &&& 0x80 ≠ 0
      · have hpacket := inBounds_iff env r.conn hlt off
        have hproc := r.inBounds_processLongPacket env datagram off
        have hready := r.recvReady_processLongPacket env datagram off
        have hnext := (r.processLongPacket_eq env datagram off).1
        simp only [if_pos hlong, List.forall_mem_cons, ← hpacket]
        generalize r.processLongPacket env datagram off = p at hproc hready hnext ⊢
        obtain ⟨next, r'⟩ := p
        by_cases hok : Action.InBounds env r.conn (.longPacket datagram off)
        · rw [next_openLongPacket hok] at hnext
          subst hnext
          cases nextOffset r.conn.recvReady datagram off with
          | none => simp [hproc, hok]
          | some cursor => simp [ih, hproc, hready, hok]
        · have hbad : ¬ r'.InBounds env := fun h => hok (hproc.1 h).1
          refine iff_of_false (fun h => hbad ?_) (fun h => hok h.2.1)
          cases next with
          | none => exact h
          | some cursor =>
            have hwalk : Reaches env r' _ := reaches_walkPackets datagram fuel cursor r'
            exact fun x hx => h x (hwalk.mem_trace hx)
      · simp only [if_neg hlong]
        simpa using r.inBounds_processShortPacket env (datagram.drop off)

/-- **Bounds of long-header processing.** For every datagram and every state, the accesses of
`process_long_packet` are in bounds and its subtractions do not wrap exactly when the datagram is
ignored, or none of the long headers it reaches is an unnumbered one that the code goes on with. -/
theorem onDatagram_inBounds_iff (env : Env) (c : Connection) (datagram : Bytes)
    (hlt : datagram.length < 2 ^ 63) :
    (onDatagram env ⟨c, []⟩ datagram).InBounds env ↔
      (c.state = .closed ∨ c.state = .draining) ∨
        ∀ off ∈ longOffsets c.recvReady datagram datagram.length 0,
          ¬ Unnumbered c.recvReady datagram off := by
  unfold onDatagram
  split
  next hquiet => exact iff_of_true (by simp [InBounds]) (.inl hquiet)
  next hquiet =>
    have hwalk := inBounds_walkPackets env hlt datagram.length 0
      (perform env ⟨c, []⟩ (.noteDatagram datagram.length))
    have hnote : (perform env ⟨c, []⟩ (.noteDatagram datagram.length)).InBounds env := by
      simp [InBounds, perform, Action.InBounds]
    have hready := c.recvReady_perform env (a := .noteDatagram datagram.length) rfl
    rw [or_iff_right hquiet]
    refine Iff.trans ?_ (hwalk.trans ?_)
    · split
      next heq => rw [heq]
      next r heq =>
        rw [heq]
        obtain ⟨as, has, hflush⟩ : ReachesBy env IsSend _ _ := reachesBy_flush (fun _ => 64)
          (r.performAll env [.installKeys, .advanceTls, .installKeys, .pullCrypto])
        rw [hflush, inBounds_performAll fun a ha => ?_, inBounds_performAll (by simp [Action.isLong])]
        rcases has a ha with ⟨level, rfl⟩ | rfl <;> rfl
    · rw [and_iff_right hnote]
      exact hready ▸ Iff.rfl

/-- An Initial packet of twenty-nine bytes, sent to a new connection. -/
theorem onDatagram_inBounds_initial :
    (onDatagram Env.plain ⟨.create Env.plain [] [] [] {}, []⟩
      ([0xc0, 0, 0, 0, 1, 0, 0, 0, 20] ++ List.replicate 20 0)).InBounds Env.plain :=
  (onDatagram_inBounds_iff Env.plain (.create Env.plain [] [] [] {})
    ([0xc0, 0, 0, 0, 1, 0, 0, 0, 20] ++ List.replicate 20 0) (by decide)).2
    (.inr (by decide +kernel))

/-- A version 0 header with thirteen more bytes, sent to a new connection: `length - pn_len`
wraps. -/
theorem onDatagram_version_zero_wraps :
    ¬ (onDatagram Env.plain ⟨.create Env.plain [] [] [] {}, []⟩
      ([0xc0, 0, 0, 0, 0, 0, 0] ++ List.replicate 13 0)).InBounds Env.plain := by
  decide +kernel

end Run

end Spaznet.Quic
