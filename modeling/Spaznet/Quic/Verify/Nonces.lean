import Mathlib.Data.Nat.ModEq
import Spaznet.Quic.Connection.Plain
import Spaznet.Quic.Connection.RoundTrip
import Spaznet.Quic.Verify.KeyGenerations

/-!
# AEAD nonces

The nonce of a packet is the IV of the level's send keys XORed with the packet number. Every packet
takes a number of its own before it is sealed, whatever it carries, and the IV changes only with the
key generation, so no level seals twice under one nonce of a generation.
-/

namespace Spaznet.Quic

open List Option Space

/-! ## The nonce determines the packet number -/

theorem xorFront_right_cancel (h : xorFront bs ms = xorFront bs ms') (hms : ms.length ≤ bs.length)
    (hlen : ms'.length = ms.length) : ms = ms' := by
  induction bs generalizing ms ms' with
  | nil =>
    have hms := eq_nil_of_length_eq_zero (Nat.le_zero.1 hms)
    subst hms
    exact (eq_nil_of_length_eq_zero hlen).symm
  | cons b bs ih =>
    cases ms with
    | nil => exact (eq_nil_of_length_eq_zero hlen).symm
    | cons m ms =>
      cases ms' with
      | nil => cases hlen
      | cons m' ms' =>
        obtain ⟨hhead, htail⟩ := List.cons.inj h
        have hm : m = m' := by
          have hx := congrArg (b ^^^ ·) hhead
          simpa [← UInt8.xor_assoc] using hx
        rw [hm, ih htail (Nat.le_of_succ_le_succ hms) (Nat.succ.inj hlen)]

theorem mod_eq_of_pnByte_eq (n : Nat) (h : ∀ i < n, pnByte p i = pnByte q i) :
    p % 256 ^ n = q % 256 ^ n := by
  induction n with
  | zero => rw [Nat.pow_zero, Nat.mod_one, Nat.mod_one]
  | succ n ih =>
    have hn := congrArg UInt8.toNat (h n (Nat.lt_succ_self n))
    rw [pnByte_toNat, pnByte_toNat] at hn
    rw [Nat.mod_pow_succ, Nat.mod_pow_succ, hn, ih fun i hi => h i (Nat.lt_succ_of_lt hi)]

theorem makeAeadNonce_injective (hiv : 8 ≤ iv.length) (hp : p < 2 ^ 64) (hq : q < 2 ^ 64)
    (h : makeAeadNonce iv p = makeAeadNonce iv q) : p = q := by
  have hbytes := xorFront_right_cancel (reverse_injective h) (by simpa using hiv) (by simp)
  have hmod := mod_eq_of_pnByte_eq 8 fun i hi =>
    map_inj_left.1 hbytes i (mem_range.2 hi)
  have hpow : (256 : Nat) ^ 8 = 2 ^ 64 := by norm_num
  rwa [hpow, Nat.mod_eq_of_lt hp, Nat.mod_eq_of_lt hq] at hmod

/-! ## Seal operations -/

structure Seal where
  level : EncryptionLevel
  /-- Key generation; levels other than Application have one only. -/
  generation : Nat
  iv : Bytes
  pn : Nat
  deriving DecidableEq, Repr

def Seal.nonce (s : Seal) : Bytes := makeAeadNonce s.iv s.pn

namespace Connection

/-- Whether the header of a packet can be built: the length in a long header has to fit. -/
def headerFits (level : EncryptionLevel) (payload : Bytes) : Bool :=
  match level with
  | .initial | .handshake => (VarInt.encode (4 + payload.length + 16)).isSome
  | .earlyData | .application => true

/-- The payload that a call of `build_and_send` seals. -/
def sealedPayload (c : Connection) (level : EncryptionLevel) : Option Bytes :=
  ((c.nextFrames level).bind encodeFrames).filter (headerFits level)

def sealKey (c : Connection) (level : EncryptionLevel) : Aead × Bytes :=
  if level = .initial then ((c.spaces level).aead, (c.spaces level).sendKeys.key)
  else ((c.spaces level).sendCtx.aead, (c.spaces level).sendCtx.key)

/-- What stands in front of the packet number, if the length fits. -/
def packetHeader (c : Connection) (level : EncryptionLevel) (payload : Bytes) : Option Bytes :=
  let length := VarInt.encode (4 + payload.length + 16)
  match level with
  | .initial => length.map (longHeaderBytes 0 c.dcid c.scid ++ [0] ++ ·)
  | .handshake => length.map (longHeaderBytes 2 c.dcid c.scid ++ ·)
  | .earlyData | .application => some (shortFirstByte (c.spaces level).sendKeyPhase :: c.dcid)

/-- Every packet that goes out is a header with the packet number, and behind it the encoded frames
under the level's send key and the nonce of its send IV and next packet number. -/
theorem sealed_of_datagram {c : Connection} (h : (c.buildAndSend env level).datagram = some pkt) :
    ∃ payload header ct tag, c.sealedPayload level = some payload ∧
      c.packetHeader level payload = some header ∧
      env.aeadSeal (c.sealKey level).1 (c.sealKey level).2
        (makeAeadNonce (c.spaces level).sendKeys.iv (c.nextPn level))
        (header ++ encodePn (c.nextPn level)) payload = some (ct, tag) ∧
      pkt.drop (header.length + 4) = ct ++ tag := by
  rw [datagram_buildAndSend] at h
  obtain ⟨payload, hpayload, hpkt⟩ := bind_eq_some_iff.1 h
  have hsealed (hfits : headerFits level payload = true) : c.sealedPayload level = some payload :=
    filter_eq_some_iff.2 ⟨hpayload, hfits⟩
  have hpkt := join_eq_some_iff.1 hpkt
  cases level with
  | initial =>
    obtain ⟨pkt', hbuild, heq⟩ := map_eq_some_iff.1 hpkt
    cases heq
    simp only [buildInitialPacket, bind_eq_bind, bind_eq_some_iff] at hbuild
    obtain ⟨tokenLen, htoken, length, hlength, hbuild⟩ := hbuild
    cases htoken
    rw [append_nil] at hbuild
    obtain ⟨ct, tag, hseal, hdrop⟩ := drop_protectPacket (by simp [longHeaderBytes]) hbuild
    have hheader : c.packetHeader .initial payload =
        some (longHeaderBytes 0 c.dcid c.scid ++ [0] ++ length) := congrArg (Option.map _) hlength
    exact ⟨payload, _, ct, tag, hsealed (isSome_iff_exists.2 ⟨length, hlength⟩), hheader, hseal,
      hdrop⟩
  | handshake =>
    obtain ⟨length, hlength, hbuild⟩ := map_eq_some_iff.1 hpkt
    obtain ⟨ct, tag, hseal, hdrop⟩ := drop_protectPacket (by simp [longHeaderBytes]) hbuild
    have hheader : c.packetHeader .handshake payload =
        some (longHeaderBytes 2 c.dcid c.scid ++ length) := congrArg (Option.map _) hlength
    exact ⟨payload, _, ct, tag, hsealed (isSome_iff_exists.2 ⟨length, hlength⟩), hheader,
      CipherCtx.aeadSeal_of_sealInplace hseal, hdrop⟩
  | earlyData | application =>
    obtain ⟨ct, tag, hseal, hdrop⟩ := drop_protectPacket (cons_ne_nil _ _) (Option.some.inj hpkt)
    exact ⟨payload, _, ct, tag, hsealed rfl, rfl, CipherCtx.aeadSeal_of_sealInplace hseal, hdrop⟩

def closing : Connection :=
  (Connection.create .plain [] [] [] {}).initiateClose 0 false [] 0

theorem sealed_closing : ∃ pkt, (closing.buildAndSend .plain .initial).datagram = some pkt ∧
    ∃ payload header ct tag, closing.sealedPayload .initial = some payload ∧
      closing.packetHeader .initial payload = some header ∧
      Env.plain.aeadSeal (closing.sealKey .initial).1 (closing.sealKey .initial).2
        (makeAeadNonce (closing.spaces .initial).sendKeys.iv 0) (header ++ encodePn 0) payload =
          some (ct, tag) ∧
      pkt.drop (header.length + 4) = ct ++ tag :=
  have h : (closing.buildAndSend .plain .initial).datagram = some _ :=
    (some_get (by decide +kernel)).symm
  ⟨_, h, sealed_of_datagram h⟩

theorem of_sealedPayload {c : Connection} (h : (c.sealedPayload level).isSome = true) (env : Env) :
    (c.spaces level).sendKeysReady = true ∧ (c.buildAndSend env level).conn.nextPn =
      Function.update c.nextPn level (c.nextPn level + 1) := by
  obtain ⟨payload, hsealed⟩ := isSome_iff_exists.1 h
  obtain ⟨hpayload, -⟩ := filter_eq_some_iff.1 hsealed
  refine ⟨?_, ?_⟩
  · obtain ⟨frames, hframes, -⟩ := bind_eq_some_iff.1 hpayload
    unfold nextFrames at hframes
    split at hframes
    · cases hframes
    next hready =>
      simp only [Bool.or_eq_true, not_or, Bool.not_eq_true', Bool.not_eq_false] at hready
      exact hready.1.1
  · rw [nextPn_buildAndSend, hpayload]
    rfl

theorem nextPn_le_perform (c : Connection) (env : Env) (a : Action) (level : EncryptionLevel) :
    c.nextPn level ≤ (c.perform env a).nextPn level := by
  refine c.perform_rule env a (fun _ => Nat.le_refl _) fun _ => ?_
  by_cases hs : ∃ l, a = .send l
  · obtain ⟨l, rfl⟩ := hs
    exact (c.recorded_buildAndSend env l).nextPn_le level
  · rw [c.nextPn_act env fun l h => hs ⟨l, h⟩]

end Connection

/-! ## Keys and IVs of a level -/

namespace KeyStep

variable {y : Crypto} {sp sp' : Space}

/-- Send keys in place stay until the send side moves on. -/
theorem sendKeys_eq (h : KeyStep y level sp sp' rotates commits) (hrot : rotates = false)
    (hready : sp.sendKeysReady = true) :
    sp'.sendKeysReady = true ∧ sp'.sendKeys = sp.sendKeys := by
  cases h with
  | same h =>
    exact ⟨(congrArg sendKeysReady h).trans hready, (congrArg sendKeys h :)⟩
  | installed aead rs ws h =>
    subst h
    have hrecv : (sp.installRecv y level aead rs).sendKeysReady = true ∧
        (sp.installRecv y level aead rs).sendKeys = sp.sendKeys := by
      unfold installRecv
      split <;> exact ⟨hready, rfl⟩
    rw [installSend_of_ready hrecv.1]
    unfold prepareNext
    split <;> exact hrecv
  | rotated => cases hrot
  | committed _ h =>
    have hphase : ¬ sp.sendKeyPhase ≠ !sp.recvKeyPhase := by simpa using hrot
    unfold commitRecv at h
    rw [if_neg hphase] at h
    exact ⟨(congrArg sendKeysReady h).trans hready, (congrArg sendKeys h :)⟩

end KeyStep

/-- The send IVs in place and prepared have twelve bytes. -/
def Space.IvsOk (sp : Space) : Prop :=
  (sp.sendKeysReady = true → sp.sendKeys.iv.length = 12) ∧
    (sp.nextKeysReady = true → sp.nextSendKeys.iv.length = 12)

theorem Space.IvsOk.step (hiv : ∀ aead secret, (y.derivePacketKeys aead secret).iv.length = 12)
    (H : sp.IvsOk) (h : KeyStep y level sp sp' rotates commits) : sp'.IvsOk := by
  have hcongr {sp₁ sp₂ : Space} (H : sp₁.IvsOk) (h : sp₂.keysOnly = sp₁.keysOnly) : sp₂.IvsOk := by
    have hkeys : sp₁.keysOnly.IvsOk := H
    rw [← h] at hkeys
    exact hkeys
  have hrotate {sp : Space} (hready : sp.nextKeysReady = true) (H : sp.IvsOk) :
      (sp.rotateSend y).IvsOk := ⟨fun _ => H.2 hready, fun _ => hiv _ _⟩
  cases h with
  | same h => exact hcongr H h
  | installed aead rs ws h =>
    subst h
    have hrecv : (sp.installRecv y level aead rs).IvsOk := by
      unfold installRecv
      split <;> exact H
    have hsend : ((sp.installRecv y level aead rs).installSend y level aead ws).IvsOk := by
      unfold installSend
      split
      · exact hrecv
      · exact ⟨fun _ => hiv _ _, hrecv.2⟩
    unfold prepareNext
    split
    · exact ⟨hsend.1, fun _ => hiv _ _⟩
    · exact hsend
  | rotated hready _ h => exact h ▸ hrotate hready H
  | committed hready h =>
    refine hcongr ?_ h
    unfold commitRecv
    dsimp only
    split
    · exact hrotate hready H
    · exact H

namespace Run

/-! ## The seal operations of a run -/

def levelGeneration (env : Env) (trace : List (Connection × Action)) (level : EncryptionLevel) :
    Nat :=
  if level = .application then sendGeneration env trace else 0

def sealOf (env : Env) (x : Connection × Action) (past : List (Connection × Action)) :
    Option Seal :=
  match x.2 with
  | .send level =>
    if x.1.faulted || (x.1.sealedPayload level).isNone then none
    else some { level, generation := levelGeneration env past level
                iv := (x.1.spaces level).sendKeys.iv, pn := x.1.nextPn level }
  | _ => none

def seals (env : Env) : List (Connection × Action) → List Seal
  | [] => []
  | x :: past => (sealOf env x past).toList ++ seals env past

theorem sealOf_eq_some (h : sealOf env x past = some s) : x.1.faulted = false ∧
    x.2 = .send s.level ∧ (x.1.sealedPayload s.level).isSome = true ∧
    s.generation = levelGeneration env past s.level ∧
    s.iv = (x.1.spaces s.level).sendKeys.iv ∧ s.pn = x.1.nextPn s.level := by
  unfold sealOf at h
  split at h
  next level ha =>
    split at h
    · cases h
    next hseals =>
      cases h
      simp only [Bool.or_eq_true, not_or, Bool.not_eq_true, isNone_eq_false_iff] at hseals
      exact ⟨hseals.1, ha, hseals.2, rfl, rfl, rfl⟩
  next => cases h

/-- What one step does to the send keys of a level: its generation moves on, or the keys stay. -/
theorem levelGeneration_step (r : Run) (env : Env) (a : Action) (level : EncryptionLevel) :
    levelGeneration env r.trace level ≤ levelGeneration env (r.perform env a).trace level ∧
      (levelGeneration env (r.perform env a).trace level = levelGeneration env r.trace level →
        (r.conn.spaces level).sendKeysReady = true →
          ((r.conn.perform env a).spaces level).sendKeysReady = true ∧
            ((r.conn.perform env a).spaces level).sendKeys = (r.conn.spaces level).sendKeys) := by
  have hsend : sendGeneration env (r.perform env a).trace = _ :=
    sendGeneration_cons env (r.conn, a) r.trace
  unfold levelGeneration
  by_cases hl : level = .application
  · subst hl
    rw [hsend]
    refine ⟨Nat.le_add_right _ _, fun heq hready => ?_⟩
    have hrot : (!r.conn.faulted && a.rotatesSend env r.conn) = false :=
      Bool.toNat_eq_zero.1 (Nat.add_eq_left.1 heq)
    exact (r.conn.keyStep_perform env a).sendKeys_eq hrot hready
  · rw [if_neg hl, if_neg hl]
    refine ⟨Nat.le_refl _, fun _ hready => ?_⟩
    refine r.conn.perform_rule env a (fun _ => ⟨hready, rfl⟩) fun _ => ?_
    exact (r.conn.keyStep_act_of_ne env a hl).sendKeys_eq rfl hready

/-- What a run knows of its earlier seal operations: their packet numbers are used up, and those of
the current generation used the current IV. -/
structure SealInv (env : Env) (r : Run) : Prop where
  pns : ∀ s ∈ seals env r.trace, s.pn < r.conn.nextPn s.level
  generations : ∀ s ∈ seals env r.trace, s.generation ≤ levelGeneration env r.trace s.level
  current : ∀ s ∈ seals env r.trace, s.generation = levelGeneration env r.trace s.level →
    (r.conn.spaces s.level).sendKeysReady = true ∧ s.iv = (r.conn.spaces s.level).sendKeys.iv
  lengths : ∀ s ∈ seals env r.trace, s.iv.length = 12
  apart : (seals env r.trace).Pairwise fun s t => s.level = t.level →
    s.pn ≠ t.pn ∧ (s.generation = t.generation → s.iv = t.iv)
  ivs : ∀ level, (r.conn.spaces level).IvsOk

theorem SealInv.step {r : Run}
    (hiv : ∀ aead secret, (env.derivePacketKeys aead secret).iv.length = 12) (H : SealInv env r)
    (a : Action) : SealInv env (r.perform env a) := by
  have hseals : seals env (r.perform env a).trace =
    (sealOf env (r.conn, a) r.trace).toList ++ seals env r.trace := rfl
  -- a seal operation of this step uses what the state before it holds
  have hnew (s : Seal) (hs : s ∈ (sealOf env (r.conn, a) r.trace).toList) :
      s.generation = levelGeneration env r.trace s.level ∧
        (r.conn.spaces s.level).sendKeysReady = true ∧
        s.iv = (r.conn.spaces s.level).sendKeys.iv ∧ s.pn = r.conn.nextPn s.level ∧
        s.pn < (r.conn.perform env a).nextPn s.level := by
    obtain ⟨hf, ha, hsealed, hgen, hsiv, hpn⟩ := sealOf_eq_some (mem_toList.1 hs)
    obtain ⟨hready, hnext⟩ := Connection.of_sealedPayload hsealed env
    refine ⟨hgen, hready, hsiv, hpn, ?_⟩
    dsimp only at ha hf
    rw [Connection.perform_of_not_faulted env hf, ha]
    show s.pn < (r.conn.buildAndSend env s.level).conn.nextPn s.level
    rw [hnext, Function.update_self, hpn]
    exact Nat.lt_succ_self _
  have hgens (s : Seal) (hs : s ∈ seals env (r.perform env a).trace) :
      s.generation ≤ levelGeneration env r.trace s.level ∧
        (s.generation = levelGeneration env r.trace s.level →
          (r.conn.spaces s.level).sendKeysReady = true ∧
            s.iv = (r.conn.spaces s.level).sendKeys.iv) := by
    rcases mem_append.1 (hseals ▸ hs) with hs | hs
    · obtain ⟨hgen, hready, hsiv, -, -⟩ := hnew s hs
      exact ⟨hgen.le, fun _ => ⟨hready, hsiv⟩⟩
    · exact ⟨H.generations s hs, H.current s hs⟩
  refine ⟨fun s hs => ?_, fun s hs => ?_, fun s hs heq => ?_, fun s hs => ?_, ?_, fun level => ?_⟩
  · rcases mem_append.1 (hseals ▸ hs) with hs | hs
    · exact (hnew s hs).2.2.2.2
    · exact (H.pns s hs).trans_le (r.conn.nextPn_le_perform env a s.level)
  · exact (hgens s hs).1.trans (r.levelGeneration_step env a s.level).1
  · obtain ⟨hle, hcurrent⟩ := hgens s hs
    obtain ⟨hmono, hkeep⟩ := r.levelGeneration_step env a s.level
    have hold : s.generation = levelGeneration env r.trace s.level :=
      Nat.le_antisymm hle (heq ▸ hmono)
    obtain ⟨hready, hsiv⟩ := hcurrent hold
    obtain ⟨hready', hkeys⟩ := hkeep (heq.symm.trans hold) hready
    exact ⟨hready', hsiv.trans (congrArg PacketKeys.iv hkeys.symm)⟩
  · rcases mem_append.1 (hseals ▸ hs) with hs | hs
    · obtain ⟨-, hready, hsiv, -, -⟩ := hnew s hs
      rw [hsiv]
      exact (H.ivs s.level).1 hready
    · exact H.lengths s hs
  · rw [hseals]
    refine pairwise_append.2 ⟨?_, H.apart, fun s hs t ht hlevel => ?_⟩
    · cases sealOf env (r.conn, a) r.trace with
      | none => exact .nil
      | some s => exact pairwise_singleton _ s
    · obtain ⟨hgen, hready, hsiv, hpn, -⟩ := hnew s hs
      have hlt := H.pns t ht
      rw [← hlevel, ← hpn] at hlt
      refine ⟨hlt.ne', fun heq => ?_⟩
      rw [hsiv, (H.current t ht (by rw [← heq, hgen, hlevel])).2, hlevel]
  · show ((r.conn.perform env a).spaces level).IvsOk
    refine r.conn.perform_rule env a (fun _ => H.ivs level) fun _ => ?_
    by_cases hl : level = .application
    · subst hl
      exact (H.ivs _).step hiv (r.conn.keyStep_act env a)
    · exact (H.ivs level).step hiv (r.conn.keyStep_act_of_ne env a hl)

/-- **Nonce uniqueness.** With IVs of twelve bytes and fewer than `2 ^ 62` packets in each space, no
two seal operations of a run at one level and key generation use the same nonce. -/
theorem nonces_distinct (env : Env)
    (hiv : ∀ aead secret, (env.derivePacketKeys aead secret).iv.length = 12)
    (clientDcid clientScid serverScid : Bytes) (tp : TransportParameters) (as : List Action) :
    let r := performAll env ⟨.create env clientDcid clientScid serverScid tp, []⟩ as
    (∀ level, (r.conn.spaces level).nextSendPn < 2 ^ 62) →
      (seals env r.trace).Pairwise fun s t =>
        s.level = t.level → s.generation = t.generation → s.nonce ≠ t.nonce := by
  intro r hpackets
  have hinit : SealInv env ⟨.create env clientDcid clientScid serverScid tp, []⟩ := by
    refine ⟨nofun, nofun, nofun, nofun, .nil, fun level => ?_⟩
    cases level with
    | initial => exact ⟨fun _ => hiv _ _, nofun⟩
    | earlyData | handshake | application => exact ⟨nofun, nofun⟩
  have hr : SealInv env r := (reaches_performAll _ as).invariant (P := fun _ _ => True)
    (fun r a h _ => h.step hiv a) hinit fun _ _ => trivial
  refine hr.apart.imp_of_mem fun {s t} hs ht hapart hlevel hgen hnonce => ?_
  obtain ⟨hpn, hsiv⟩ := hapart hlevel
  have hlt {s : Seal} (hs : s ∈ seals env r.trace) : s.pn < 2 ^ 64 :=
    ((hr.pns s hs).trans (hpackets s.level)).trans (by norm_num)
  have hlen : 8 ≤ s.iv.length := by
    rw [hr.lengths s hs]
    norm_num
  unfold Seal.nonce at hnonce
  rw [← hsiv hgen] at hnonce
  exact hpn (makeAeadNonce_injective hlen (hlt hs) (hlt ht) hnonce)

/-- Three ACKs at the Application level, the last one after a key update. -/
def sealedAcks : List Action :=
  [.markValidated, .advanceTls, .installKeys, .received .application 0, .send .application,
    .received .application 1, .send .application, .keyUpdate, .received .application 2,
    .send .application]

theorem nonces_distinct_sealedAcks :
    let env := Env.plainEstablished {}
    let r := performAll env ⟨.create env [] [] [] {}, []⟩ sealedAcks
    (seals env r.trace).map (fun s => (s.generation, s.pn)) = [(1, 2), (0, 1), (0, 0)] ∧
      (seals env r.trace).Pairwise fun s t =>
        s.level = t.level → s.generation = t.generation → s.nonce ≠ t.nonce := by
  refine ⟨by decide +kernel, nonces_distinct _ (fun _ _ => rfl) [] [] [] {} sealedAcks ?_⟩
  intro level
  cases level <;> decide +kernel

end Run

end Spaznet.Quic
