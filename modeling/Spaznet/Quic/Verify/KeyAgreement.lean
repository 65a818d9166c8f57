import Spaznet.Quic.Connection.RoundTrip
import Spaznet.Quic.Verify.Nonces

/-!
# Key updates between two endpoints

Two connections exchange 1-RTT packets over a wire that loses and reorders them. A packet can be
opened while its generation is that of the receiver's current receive keys or the next one. The code
lets an endpoint that has just followed its peer's update start another one, before the peer has
seen a packet of the first; its packets are then two generations ahead. If every local update waits
for the peer's receive side, packets never get further ahead than one generation.
-/

namespace Spaznet.Quic

open Connection Run Function Option

inductive Side where
  | left
  | right
  deriving DecidableEq, Repr

def Side.other : Side → Side
  | .left => .right
  | .right => .left

@[simp] theorem Side.other_other (s : Side) : s.other.other = s := by cases s <;> rfl

/-- A 1-RTT packet as it was handed to `send_fn`. -/
structure SealedPacket where
  sender : Side
  /-- The generation of the keys it was sealed with. -/
  generation : Nat
  /-- The receive generation of the other side at that time. -/
  receiverAt : Nat
  pn : Nat
  payload : Bytes
  bytes : Bytes
  deriving DecidableEq, Repr

/-- Two endpoints and every packet that was sent between them, newest first. A packet that is never
delivered is lost. -/
structure Link where
  ends : Side → Run
  wire : List SealedPacket := []

/-- An endpoint does something of its own, or receives one of the packets. -/
inductive Move where
  | act (side : Side) (a : Action)
  | deliver (side : Side) (index : Nat)
  deriving DecidableEq, Repr

namespace Link

variable (env : Env)

def start (ends : Side → Connection) : Link := { ends := fun s => ⟨ends s, []⟩ }

def sendGen (l : Link) (s : Side) : Nat := sendGeneration env (l.ends s).trace

def recvGen (l : Link) (s : Side) : Nat := recvGeneration env (l.ends s).trace

def nextSealed (l : Link) (s : Side) : Option SealedPacket :=
  let c := (l.ends s).conn
  if c.faulted then none
  else (c.buildAndSend env .application).datagram.map fun bytes =>
    { sender := s, generation := l.sendGen env s, receiverAt := l.recvGen env s.other
      pn := c.nextPn .application, payload := (c.sealedPayload .application).getD [], bytes }

def perform (l : Link) (s : Side) (a : Action) : Link :=
  { l with ends := update l.ends s ((l.ends s).perform env a) }

def step (l : Link) : Move → Link
  -- short-header packets come from the wire only
  | .act _ (.shortPacket _) => l
  | .act s a => { l.perform env s a with
      wire := (if a = .send .application then (l.nextSealed env s).toList else []) ++ l.wire }
  | .deliver s i => match l.wire[i]? with
    | some p => if p.sender = s.other then l.perform env s (.shortPacket p.bytes) else l
    | none => l

/-- Every packet was sealed at most one generation ahead of its receiver, and one that was sealed
after the receiver's latest commit opens, if its packet number is reconstructed. -/
structure InStep (l : Link) : Prop where
  ahead : ∀ p ∈ l.wire, p.generation ≤ p.receiverAt + 1
  opens : ∀ p ∈ l.wire, p.receiverAt = l.recvGen env p.sender.other →
    (l.ends p.sender.other).conn.reconstruct p.pn = p.pn →
    (l.ends p.sender.other).conn.openShortPacket env p.bytes =
      some { pn := p.pn, payload := p.payload
             update := decide (p.generation ≠ l.recvGen env p.sender.other) }

/-- A local update that takes effect starts after the peer has received a packet of the current send
generation. -/
def Confirmed (l : Link) : Move → Prop
  | .act s a => a = .keyUpdate → ((l.ends s).conn.initiateKeyUpdate env).1 = true →
      l.sendGen env s ≤ l.recvGen env s.other
  | .deliver _ _ => True

/-- Authenticity of the AEAD: a packet opens only under keys of the generation it was sealed
with. -/
def Genuine (l : Link) : Move → Prop
  | .deliver s i => ∀ p ∈ l.wire[i]?, p.sender = s.other →
      ∀ q ∈ (l.ends s).conn.openShortPacket env p.bytes,
        p.generation = l.recvGen env s + q.update.toNat
  | .act _ _ => True

instance (l : Link) : DecidablePred (l.Confirmed env)
  | .act s a => inferInstanceAs (Decidable (a = .keyUpdate →
      ((l.ends s).conn.initiateKeyUpdate env).1 = true → l.sendGen env s ≤ l.recvGen env s.other))
  | .deliver _ _ => isTrue trivial

instance (l : Link) : DecidablePred (l.Genuine env)
  | .deliver s i => inferInstanceAs (Decidable (∀ p ∈ l.wire[i]?, p.sender = s.other →
      ∀ q ∈ (l.ends s).conn.openShortPacket env p.bytes,
        p.generation = l.recvGen env s + q.update.toNat))
  | .act _ _ => isTrue trivial

end Link

/-- Opening undoes sealing, and cipher contexts can be set up. -/
structure AeadWorks (y : Crypto) : Prop where
  roundTrip : ∀ {aead key nonce aad plaintext ct tag},
    y.aeadSeal aead key nonce aad plaintext = some (ct, tag) →
      y.aeadOpen aead key nonce aad ct tag = some plaintext
  contexts : ∀ aead key dir, y.cipherInit aead key dir = true

/-- The two ends hold the keys of one handshake, with the successors prepared and no update made. -/
structure Paired (y : Crypto) (ends : Side → Connection) : Prop where
  fresh : ∀ s, Space.AtGeneration y ((ends s).spaces .application) 0 0
    ((ends s).spaces .application)
  aead : ∀ s, ((ends s).spaces .application).aead = ((ends s.other).spaces .application).aead
  secret : ∀ s, ((ends s).spaces .application).sendSecret =
    ((ends s.other).spaces .application).recvSecret
  keys : ∀ s, ((ends s).spaces .application).sendKeys =
    ((ends s.other).spaces .application).recvKeys
  sendCtx : ∀ s, ((ends s).spaces .application).sendCtx = .init y
    ((ends s).spaces .application).aead ((ends s).spaces .application).sendKeys.key .encrypt
  recvCtx : ∀ s, ((ends s).spaces .application).recvCtx = .init y
    ((ends s).spaces .application).aead ((ends s).spaces .application).recvKeys.key .decrypt
  cids : ∀ s, (ends s).dcid.length = (ends s.other).scid.length

/-! ## Sealing and opening -/

structure KeyChain.Mirrored (y : Crypto) (k k' : KeyChain) : Prop where
  aead : k.aead = k'.aead
  secret : k.secret = k'.secret
  keys : k.keys = k'.keys
  ctx : k.ctx = .init y k.aead k.keys.key .encrypt
  ctx' : k'.ctx = .init y k'.aead k'.keys.key .decrypt
  dir : k.dir = .encrypt ∧ k'.dir = .decrypt

namespace KeyChain

variable {y : Crypto} {k k' : KeyChain}

theorem Mirrored.keysAt_eq (h : Mirrored y k k') (n : Nat) : k.keysAt y n = k'.keysAt y n := by
  have hsecret : k.secretAt y n = k'.secretAt y n := by
    unfold secretAt
    rw [h.aead, h.secret]
  cases n with
  | zero => exact h.keys
  | succ n => simp only [keysAt, hsecret, h.aead, h.keys]

theorem ctxAt_eq (h : k.ctx = .init y k.aead k.keys.key k.dir) (n : Nat) :
    k.ctxAt y n = .init y k.aead (k.keysAt y n).key k.dir := by
  cases n with
  | zero => exact h
  | succ n => rfl

/-- What one end seals in a generation, the other opens in that generation. -/
theorem Mirrored.open_of_seal (h : Mirrored y k k') (hy : AeadWorks y)
    (hseal : (k.ctxAt y n).sealInplace y nonce aad body = some (ct, tag)) :
    (k'.ctxAt y n).openInplace y nonce aad ct tag = some body := by
  have hctx : k.ctx = .init y k.aead k.keys.key k.dir := h.dir.1 ▸ h.ctx
  have hctx' : k'.ctx = .init y k'.aead k'.keys.key k'.dir := h.dir.2 ▸ h.ctx'
  rw [ctxAt_eq hctx, h.dir.1, h.aead, h.keysAt_eq] at hseal
  rw [ctxAt_eq hctx', h.dir.2]
  unfold CipherCtx.init at hseal ⊢
  rw [hy.contexts, if_pos rfl] at hseal ⊢
  unfold CipherCtx.sealInplace at hseal
  unfold CipherCtx.openInplace
  split at hseal
  · cases hseal
  next hkey =>
    simp only [bne_self_eq_false] at hkey ⊢
    rw [if_neg hkey]
    exact hy.roundTrip hseal

end KeyChain

theorem Paired.mirrored (h : Paired y ends) (s : Side) :
    KeyChain.Mirrored y ((ends s).spaces .application).sendChain
      ((ends s.other).spaces .application).recvChain :=
  ⟨h.aead s, h.secret s, h.keys s, h.sendCtx s, h.recvCtx s.other, rfl, rfl⟩

/-- A packet as the keys of its generation seal it, counted from the keys of a connection. -/
def SealedPacket.SealedBy (y : Crypto) (c : Connection) (p : SealedPacket) : Prop :=
  let k := (c.spaces .application).sendChain
  let phase := decide (p.generation % 2 = 1)
  ∃ ct tag, (k.ctxAt y p.generation).sealInplace y (makeAeadNonce (k.keysAt y p.generation).iv p.pn)
      (shortFirstByte phase :: c.dcid ++ encodePn p.pn) p.payload = some (ct, tag) ∧
    p.bytes = maskHeader (y.headerProtectionMask k.aead k.keys.hp ((ct ++ tag).take kSampleLen))
      0x1f (1 + c.dcid.length) (shortPacketBytes phase c.dcid p.pn (ct ++ tag))

namespace Link

variable {env : Env}

theorem sealedBy_of_nextSealed {l : Link}
    (H : Space.AtGeneration env.toCrypto (c.spaces .application) (l.sendGen env s)
      (l.recvGen env s) ((l.ends s).conn.spaces .application))
    (hfixed : (l.ends s).conn.fixed = c.fixed) (h : l.nextSealed env s = some p) :
    p.sender = s ∧ p.generation = l.sendGen env s ∧ p.receiverAt = l.recvGen env s.other ∧
      p.SealedBy env.toCrypto c := by
  unfold nextSealed at h
  dsimp only at h
  split at h
  · cases h
  obtain ⟨bytes, hdatagram, rfl⟩ := map_eq_some_iff.1 h
  refine ⟨rfl, rfl, rfl, ?_⟩
  rw [datagram_buildAndSend] at hdatagram
  obtain ⟨payload, hpayload, hpkt⟩ := bind_eq_some_iff.1 hdatagram
  obtain ⟨ct, tag, hseal, hbytes⟩ := buildPacket_application (join_eq_some_iff.1 hpkt)
  have hsealed : (l.ends s).conn.sealedPayload .application = some payload :=
    filter_eq_some_iff.2 ⟨hpayload, rfl⟩
  have hdcid : (l.ends s).conn.dcid = c.dcid := congrArg (·.1) hfixed
  have hhp : ((l.ends s).conn.spaces .application).sendKeys.hp =
      (c.spaces .application).sendChain.keys.hp := by
    rw [H.send.keys, KeyChain.hp_keysAt]
  rw [H.send.ctx, H.send.keys, H.sendPhase, hdcid] at hseal
  rw [hhp, H.aead, H.sendPhase, hdcid] at hbytes
  refine ⟨ct, tag, ?_, hbytes⟩
  rw [hsealed]
  exact hseal

end Link

/-- A packet of the receiver's generation or the next one opens. -/
theorem Paired.opens {env : Env} {ends : Side → Connection} (hy : AeadWorks env.toCrypto)
    (hpaired : Paired env.toCrypto ends) {p : SealedPacket}
    (hp : p.SealedBy env.toCrypto (ends p.sender)) {d : Connection}
    (hfixed : d.fixed = (ends p.sender.other).fixed)
    (H : Space.AtGeneration env.toCrypto ((ends p.sender.other).spaces .application) send recv
      (d.spaces .application)) (hle : recv ≤ p.generation) (hge : p.generation ≤ recv + 1)
    (hpn : d.reconstruct p.pn = p.pn) : d.openShortPacket env p.bytes =
      some { pn := p.pn, payload := p.payload, update := decide (p.generation ≠ recv) } := by
  obtain ⟨ct, tag, hseal, hbytes⟩ := hp
  have hmirror := hpaired.mirrored p.sender
  have htag : tag.length = 16 := (CipherCtx.length_sealInplace hseal).2
  have hcid : d.scid.length = (ends p.sender).dcid.length := by
    have hscid : d.scid = (ends p.sender.other).scid := congrArg (·.2.1) hfixed
    rw [hscid, hpaired.cids]
  have hhp : (d.spaces .application).recvKeys.hp =
      ((ends p.sender).spaces .application).sendChain.keys.hp := by
    rw [H.recv.keys, KeyChain.hp_keysAt, hmirror.keys]
  have haead : (d.spaces .application).aead =
      ((ends p.sender).spaces .application).sendChain.aead := by
    rw [H.aead]
    exact hmirror.aead.symm
  have hmasked := d.openShortPacket_masked env (decide (p.generation % 2 = 1))
    (ends p.sender).dcid p.pn ct tag H.ready.2.1 hcid htag
  dsimp only at hmasked
  rw [haead, hhp, ← hbytes, hpn, H.recvPhase, H.ready.2.2] at hmasked
  have hopen := hmirror.open_of_seal hy hseal
  rw [hmirror.keysAt_eq] at hopen
  rcases Nat.eq_or_lt_of_le hle with heq | hlt
  · -- the phase bit is the receiver's own
    rw [← heq] at hopen hmasked ⊢
    rw [hmasked, H.recv.ctx, H.recv.keys, hopen]
    simp
  · have hnext : p.generation = recv + 1 := Nat.le_antisymm hge hlt
    have hphase : decide ((recv + 1) % 2 = 1) ≠ decide (recv % 2 = 1) := by
      rw [Ne, decide_eq_decide]
      omega
    rw [hnext] at hopen hmasked ⊢
    rw [hmasked, if_neg hphase, H.recv.nextCtx, H.recv.nextKeys, hopen]
    simp

namespace Link

/-! ## What the moves keep -/

/-- Where the two ends stand to each other, and what is known of the packets between them. -/
structure Agreement (env : Env) (ends : Side → Connection) (l : Link) : Prop where
  keys : ∀ s, Space.AtGeneration env.toCrypto ((ends s).spaces .application) (l.sendGen env s)
    (l.recvGen env s) ((l.ends s).conn.spaces .application)
  fixed : ∀ s, (l.ends s).conn.fixed = (ends s).fixed
  behind : ∀ s, l.recvGen env s ≤ l.sendGen env s.other
  ahead : ∀ s, l.sendGen env s ≤ l.recvGen env s.other + 1
  packets : ∀ p ∈ l.wire, p.receiverAt ≤ p.generation ∧ p.generation ≤ p.receiverAt + 1 ∧
    p.generation ≤ l.sendGen env p.sender ∧ p.SealedBy env.toCrypto (ends p.sender)

variable {env : Env} {ends : Side → Connection}

/-- What an action of one end does to the generations. -/
theorem gens_perform (l : Link) (env : Env) (s : Side) (a : Action) :
    (∀ s', s' ≠ s → (l.perform env s a).sendGen env s' = l.sendGen env s' ∧
      (l.perform env s a).recvGen env s' = l.recvGen env s') ∧
    (l.perform env s a).sendGen env s = l.sendGen env s +
      (!(l.ends s).conn.faulted && a.rotatesSend env (l.ends s).conn).toNat ∧
    (l.perform env s a).recvGen env s = l.recvGen env s +
      (!(l.ends s).conn.faulted && a.commitsRecv env (l.ends s).conn).toNat := by
  unfold sendGen recvGen perform
  dsimp only
  rw [update_self]
  refine ⟨fun s' hne => ?_, sendGeneration_cons .., recvGeneration_cons ..⟩
  rw [update_of_ne hne]
  exact ⟨rfl, rfl⟩

section
variable (H : Agreement env ends l)
include H

theorem Agreement.perform (s : Side) (a : Action)
    (hbehind : (l.perform env s a).recvGen env s ≤ l.sendGen env s.other)
    (hahead : (l.perform env s a).sendGen env s ≤ l.recvGen env s.other + 1) :
    Agreement env ends (l.perform env s a) := by
  obtain ⟨hother, hsend, hrecv⟩ := l.gens_perform env s a
  have hne : s.other ≠ s := by cases s <;> nofun
  have hmono (s' : Side) : l.sendGen env s' ≤ (l.perform env s a).sendGen env s' := by
    by_cases hs : s' = s
    · subst hs
      rw [hsend]
      exact Nat.le_add_right ..
    · exact (hother s' hs).1.ge
  have hcases (s' : Side) : s' = s ∨ s' = s.other := by cases s <;> cases s' <;> simp [Side.other]
  refine ⟨fun s' => ?_, fun s' => ?_, fun s' => ?_, fun s' => ?_, fun p hp => ?_⟩
  · by_cases hs : s' = s
    · subst hs
      have hstep := (H.keys s').step ((l.ends s').conn.keyStep_perform env a)
      rw [← hsend, ← hrecv] at hstep
      have hconn : ((l.perform env s' a).ends s').conn = (l.ends s').conn.perform env a := by
        unfold Link.perform
        dsimp only
        rw [update_self]
        rfl
      rwa [hconn]
    · obtain ⟨hsend', hrecv'⟩ := hother s' hs
      rw [hsend', hrecv']
      have hends : (l.perform env s a).ends s' = l.ends s' := update_of_ne hs ..
      rw [hends]
      exact H.keys s'
  · rw [← H.fixed s']
    show (update l.ends s ((l.ends s).perform env a) s').conn.fixed = _
    by_cases hs : s' = s
    · subst hs
      rw [update_self]
      exact fixed_perform _ env a
    · rw [update_of_ne hs]
  · rcases hcases s' with rfl | rfl
    · rw [(hother _ hne).1]
      exact hbehind
    · rw [(hother _ hne).2, Side.other_other]
      have hold := H.behind s.other
      rw [Side.other_other] at hold
      exact hold.trans (hmono s)
  · rcases hcases s' with rfl | rfl
    · rw [(hother _ hne).2]
      exact hahead
    · rw [(hother _ hne).1, Side.other_other]
      have hold := H.ahead s.other
      rw [Side.other_other] at hold
      omega
  · obtain ⟨hge, hle, hsent, hsealed⟩ := H.packets p hp
    exact ⟨hge, hle, hsent.trans (hmono p.sender), hsealed⟩

theorem Agreement.act (s : Side) (a : Action)
    (ha : a.commitsRecv env (l.ends s).conn = false) (hconfirmed : l.Confirmed env (.act s a)) :
    Agreement env ends (l.perform env s a) := by
  obtain ⟨-, hsend, hrecv⟩ := l.gens_perform env s a
  rw [ha, Bool.and_false] at hrecv
  have hahead := H.ahead s
  refine H.perform s a (hrecv ▸ H.behind s) ?_
  rw [hsend]
  cases hrot : !(l.ends s).conn.faulted && a.rotatesSend env (l.ends s).conn with
  | false => exact hahead
  | true =>
    -- only a local update rotates without a packet
    obtain rfl : a = .keyUpdate := by
      unfold Action.rotatesSend at hrot
      split at hrot
      · rfl
      · rw [ha, Bool.false_and, Bool.and_false] at hrot
        cases hrot
    have hle : l.sendGen env s ≤ l.recvGen env s.other :=
      hconfirmed rfl ((Bool.and_eq_true _ _).mp hrot).2
    exact Nat.succ_le_succ hle

theorem Agreement.deliver (hp : p ∈ l.wire)
    (hsender : p.sender = s.other) (hgenuine : ∀ q ∈ (l.ends s).conn.openShortPacket env p.bytes,
      p.generation = l.recvGen env s + q.update.toNat) :
    Agreement env ends (l.perform env s (.shortPacket p.bytes)) := by
  obtain ⟨-, hsend, hrecv⟩ := l.gens_perform env s (.shortPacket p.bytes)
  have hbehind := H.behind s
  have hahead := H.ahead s
  obtain ⟨-, -, hsent, -⟩ := H.packets p hp
  rw [hsender] at hsent
  cases hcommit : Action.commitsRecv env (l.ends s).conn (.shortPacket p.bytes) with
  | false =>
    have hrot : Action.rotatesSend env (l.ends s).conn (.shortPacket p.bytes) = false := by
      unfold Action.rotatesSend
      rw [hcommit, Bool.false_and]
    rw [hcommit, Bool.and_false] at hrecv
    rw [hrot, Bool.and_false] at hsend
    exact H.perform s _ (hrecv ▸ hbehind) (hsend ▸ hahead)
  | true =>
    -- the packet is of the next generation, which the other end has reached
    obtain ⟨q, hopen, hupdate⟩ := (any_eq_true _ _).1 hcommit
    have hgen := hgenuine q hopen
    rw [hupdate, Bool.toNat_true] at hgen
    have hlag := (H.keys s.other).lag
    have hle : (!(l.ends s).conn.faulted && Action.commitsRecv env (l.ends s).conn
        (.shortPacket p.bytes)).toNat ≤ 1 := Bool.toNat_le _
    refine H.perform s _ (by omega) ?_
    rw [hsend]
    by_cases heq : l.sendGen env s = l.recvGen env s
    · have hle' : (!(l.ends s).conn.faulted && Action.rotatesSend env (l.ends s).conn
        (.shortPacket p.bytes)).toNat ≤ 1 := Bool.toNat_le _
      omega
    have hphase : ((l.ends s).conn.spaces .application).sendKeyPhase ≠
        ((l.ends s).conn.spaces .application).recvKeyPhase :=
      fun h => heq ((H.keys s).phase_eq_iff.1 h)
    have hrot : Action.rotatesSend env (l.ends s).conn (.shortPacket p.bytes) = false := by
      unfold Action.rotatesSend
      rw [Bool.eq_not_of_ne hphase, bne_self_eq_false, Bool.and_false]
    rw [hrot, Bool.and_false]
    exact hahead

end

theorem Agreement.step {l : Link} (H : Agreement env ends l) (m : Move)
    (hm : l.Confirmed env m ∧ l.Genuine env m) : Agreement env ends (l.step env m) := by
  obtain ⟨hconfirmed, hgenuine⟩ := hm
  unfold Link.step
  split
  · exact H
  next s a hshort =>
    have hcommits : a.commitsRecv env (l.ends s).conn = false := by
      cases a <;> first | rfl | exact (hshort _ rfl).elim
    have hact := H.act s a hcommits hconfirmed
    refine { hact with packets := fun p hp => ?_ }
    rcases List.mem_append.1 hp with hnew | hold
    · split at hnew
      next ha =>
        subst ha
        obtain ⟨hsender, hgen, hat, hsealed⟩ :=
          sealedBy_of_nextSealed (H.keys s) (H.fixed s) (mem_toList.1 hnew)
        have hmono : l.sendGen env s ≤ (l.perform env s (.send .application)).sendGen env s :=
          (l.gens_perform env s _).2.1.ge.trans' (Nat.le_add_right ..)
        have hbehind := H.behind s.other
        rw [Side.other_other] at hbehind
        refine ⟨?_, ?_, ?_, hsender ▸ hsealed⟩
        · rw [hgen, hat]
          exact hbehind
        · rw [hgen, hat]
          exact H.ahead s
        · rw [hgen, hsender]
          exact hmono
      · cases hnew
    · exact hact.packets p hold
  next s i =>
    split
    next p hp =>
      split
      next hsender => exact H.deliver (List.mem_of_getElem? hp) hsender (hgenuine p hp hsender)
      · exact H
    · exact H

theorem Agreement.inStep {l : Link} (H : Agreement env ends l) (hy : AeadWorks env.toCrypto)
    (hpaired : Paired env.toCrypto ends) : InStep env l where
  ahead p hp := (H.packets p hp).2.1
  opens p hp hat hpn := by
    obtain ⟨hge, hle, -, hsealed⟩ := H.packets p hp
    rw [hat] at hge hle
    exact hpaired.opens hy hsealed (H.fixed _) (H.keys _) hge hle hpn

/-- **Key agreement.** If every local update that takes effect waits until the peer's receive keys
have reached the endpoint's send keys, then in every interleaving of updates, sends, deliveries,
reorderings and losses every packet is sealed at most one generation ahead of its receiver, and one
sealed after the receiver's latest commit opens. -/
theorem keys_in_step (env : Env) (hy : AeadWorks env.toCrypto) (ends : Side → Connection)
    (hpaired : Paired env.toCrypto ends) (moves : List Move)
    (hgenuine : Machine.AllSteps (step env) (Genuine env) (start ends) moves)
    (hconfirmed : Machine.AllSteps (step env) (Confirmed env) (start ends) moves) :
    InStep env (Machine.run (step env) (start ends) moves) := by
  have hinit : Agreement env ends (start ends) :=
    ⟨hpaired.fresh, fun _ => rfl, fun _ => Nat.le_refl _, fun _ => Nat.zero_le _, nofun⟩
  have hrun := Machine.run_invariant (fun l m H hm => H.step m hm) hinit (hconfirmed.and hgenuine)
  exact hrun.inStep hy hpaired

end Link

/-! ## Runs -/

/-- Keys are told apart by their length, which the tag carries. TLS hands both ends the same secret
at once. -/
def Env.keyed : Env :=
  { Env.plainEstablished { initialMaxData := 64, initialMaxStreamDataBidiRemote := 64 } with
    derivePacketKeys := fun _ secret => { key := secret, iv := List.replicate 12 0, hp := [1] }
    deriveNextApplicationSecret := fun _ secret => 1 :: secret
    aeadSeal := fun _ key _ _ plaintext =>
      some (plaintext, List.replicate 15 0 ++ [UInt8.ofNat key.length])
    aeadOpen := fun _ key _ _ body tag =>
      if tag = List.replicate 15 0 ++ [UInt8.ofNat key.length] then some body else none
    length_aeadSeal := by
      rintro _ _ _ _ _ _ _ ⟨⟩
      exact ⟨rfl, rfl⟩
    length_aeadOpen := by
      intro _ _ _ _ body tag plaintext h
      split at h
      · rw [Option.some.inj h]
      · cases h }

theorem aeadWorks_keyed : AeadWorks Env.keyed.toCrypto where
  roundTrip := by
    rintro _ _ _ _ _ _ _ ⟨⟩
    exact if_pos rfl
  contexts _ _ _ := rfl

def keyedEnd : Connection :=
  (performAll Env.keyed ⟨.create Env.keyed [] [] [] {}, []⟩
    [.markValidated, .advanceTls, .installKeys, .establish, .writeStream 1 [7, 7] false]).conn

theorem paired_keyed : Paired Env.keyed.toCrypto fun _ => keyedEnd where
  fresh _ := ⟨by decide, by decide +kernel, by decide +kernel,
    ⟨rfl, rfl, rfl, rfl, rfl⟩, ⟨rfl, rfl, rfl, rfl, rfl⟩, rfl, rfl, rfl, rfl⟩
  aead _ := rfl
  secret _ := rfl
  keys _ := rfl
  sendCtx _ := rfl
  recvCtx _ := rfl
  cids _ := rfl

namespace Link

/-- One end updates its keys, the other follows; then the first end updates them again. -/
def echoedUpdates : List Move :=
  [.act .right .keyUpdate, .act .right (.send .application), .deliver .left 0,
    .act .left (.send .application), .deliver .right 0, .act .right .keyUpdate,
    .act .right (.writeStream 1 [8] false), .act .right (.send .application), .deliver .left 0]

theorem keys_in_step_echoedUpdates :
    let l := Machine.run (step Env.keyed) (start fun _ => keyedEnd) echoedUpdates
    l.wire.map (·.generation) = [2, 1, 1] ∧ InStep Env.keyed l := by
  refine ⟨by decide +kernel, keys_in_step _ aeadWorks_keyed _ paired_keyed _ ?_ ?_⟩
  · decide +kernel
  · decide +kernel

/-- The end that followed an update starts the next one at once: its phases are equal again, but the
other end still receives with its first keys. -/
def unconfirmedUpdate : List Move :=
  [.act .right .keyUpdate, .act .right (.send .application), .deliver .left 0,
    .act .left .keyUpdate, .act .left (.send .application)]

theorem not_keys_in_step : ¬ ∀ env : Env, AeadWorks env.toCrypto → ∀ ends,
    Paired env.toCrypto ends → ∀ moves,
      Machine.AllSteps (step env) (Genuine env) (start ends) moves →
        InStep env (Machine.run (step env) (start ends) moves) := by
  intro h
  have hrun := h _ aeadWorks_keyed _ paired_keyed unconfirmedUpdate (by decide +kernel)
  have hwire : ∃ p ∈ (Machine.run (step Env.keyed) (start fun _ => keyedEnd) unconfirmedUpdate).wire,
      ¬ p.generation ≤ p.receiverAt + 1 := by decide +kernel
  obtain ⟨p, hp, hgen⟩ := hwire
  exact hgen (hrun.ahead p hp)

end Link

end Spaznet.Quic
