import Mathlib.Logic.Function.Iterate
import Spaznet.Quic.Connection.Flight

/-!
# Generations of 1-RTT keys

A key update moves the send or the receive keys of the Application level one generation on. The
generations of a run are the numbers of such moves; `KeyChain` says which secret, keys and cipher
context belong to a generation, given those that were installed. The send side is never behind the
receive side and at most one generation ahead, and the keys prepared in advance are those of the
next generation.
-/

namespace Spaznet.Quic

open List Function Space

/-! ## Key chains -/

/-- What was installed for one direction; later generations are derived from it. -/
structure KeyChain where
  aead : Aead
  dir : CipherDirection
  secret : Bytes
  keys : PacketKeys
  ctx : CipherCtx

namespace KeyChain

variable (y : Crypto) (k : KeyChain)

def secretAt (n : Nat) : Bytes := (y.deriveNextApplicationSecret (aeadHash k.aead))^[n] k.secret

/-- The keys of a generation. The header-protection key is that of the first. -/
def keysAt : Nat → PacketKeys
  | 0 => k.keys
  | n + 1 => { y.derivePacketKeys k.aead (k.secretAt y (n + 1)) with hp := k.keys.hp }

def ctxAt : Nat → CipherCtx
  | 0 => k.ctx
  | n + 1 => .init y k.aead (k.keysAt y (n + 1)).key k.dir

theorem secretAt_succ (n : Nat) : k.secretAt y (n + 1) =
    y.deriveNextApplicationSecret (aeadHash k.aead) (k.secretAt y n) :=
  Function.iterate_succ_apply' ..

@[simp] theorem hp_keysAt (n : Nat) : (k.keysAt y n).hp = k.keys.hp := by cases n <;> rfl

/-- The members of one direction of a space are those of generation `n`, and those prepared in
advance are of the generation after it. -/
structure At (n : Nat) (secret : Bytes) (keys : PacketKeys) (ctx : CipherCtx)
    (nextKeys : PacketKeys) (nextCtx : CipherCtx) : Prop where
  secret : secret = k.secretAt y n
  keys : keys = k.keysAt y n
  ctx : ctx = k.ctxAt y n
  nextKeys : nextKeys = k.keysAt y (n + 1)
  nextCtx : nextCtx = k.ctxAt y (n + 1)

variable {y k}

theorem at_succ {p nextKeys next : PacketKeys}
    (h : k.At y n s p x nextKeys nextCtx) (haead : a = k.aead)
    (hsecret : s' = y.deriveNextApplicationSecret (aeadHash a) s)
    (hnext : next = nextPhaseKeys y a s' nextKeys.hp) :
    k.At y (n + 1) s' nextKeys nextCtx next (.init y a next.key k.dir) := by
  subst haead
  rw [h.secret, ← secretAt_succ] at hsecret
  rw [hsecret, h.nextKeys, hp_keysAt, nextPhaseKeys, ← secretAt_succ] at hnext
  exact ⟨hsecret, h.nextKeys, h.nextCtx, hnext, by rw [hnext]; rfl⟩

end KeyChain

/-! ## One space -/

namespace Space

def keysOnly (sp : Space) : Space := { sp.core with nextSendPn := 0 }

def sendChain (sp : Space) : KeyChain := ⟨sp.aead, .encrypt, sp.sendSecret, sp.sendKeys, sp.sendCtx⟩

def recvChain (sp : Space) : KeyChain := ⟨sp.aead, .decrypt, sp.recvSecret, sp.recvKeys, sp.recvCtx⟩

/-- The space holds the send keys of generation `send` and the receive keys of generation `recv`,
counted from `base`. -/
structure AtGeneration (y : Crypto) (base : Space) (send recv : Nat) (sp : Space) : Prop where
  lag : recv ≤ send ∧ send ≤ recv + 1
  sendPhase : sp.sendKeyPhase = decide (send % 2 = 1)
  recvPhase : sp.recvKeyPhase = decide (recv % 2 = 1)
  send : base.sendChain.At y send sp.sendSecret sp.sendKeys sp.sendCtx sp.nextSendKeys sp.nextSendCtx
  recv : base.recvChain.At y recv sp.recvSecret sp.recvKeys sp.recvCtx sp.nextRecvKeys sp.nextRecvCtx
  aead : sp.aead = base.aead
  ready : sp.sendKeysReady = true ∧ sp.recvKeysReady = true ∧ sp.nextKeysReady = true

namespace AtGeneration

variable {y : Crypto} {base sp : Space} {send recv : Nat}

theorem congr (H : AtGeneration y base send recv sp) (h : sp'.keysOnly = sp.keysOnly) :
    AtGeneration y base send recv sp' := by
  have hkeys : AtGeneration y base send recv sp.keysOnly := { H with }
  rw [← h] at hkeys
  exact { hkeys with }

theorem phase_eq_iff (H : AtGeneration y base send recv sp) :
    sp.sendKeyPhase = sp.recvKeyPhase ↔ send = recv := by
  rw [H.sendPhase, H.recvPhase]
  have hlag := H.lag
  constructor
  · intro h
    have : send % 2 = 1 ↔ recv % 2 = 1 := by simpa using h
    omega
  · rintro rfl
    rfl

theorem flip_phase (n : Nat) : (!decide (n % 2 = 1)) = decide ((n + 1) % 2 = 1) := by
  rw [← decide_not, decide_eq_decide]
  omega

/-- A local update, which the code allows only at equal phases. -/
theorem rotateSend (H : AtGeneration y base send recv sp) (heq : send = recv) :
    AtGeneration y base (send + 1) recv (sp.rotateSend y) where
  lag := by omega
  sendPhase := by
    show (!sp.sendKeyPhase) = _
    rw [H.sendPhase, flip_phase]
  recvPhase := H.recvPhase
  send := KeyChain.at_succ H.send H.aead rfl rfl
  recv := H.recv
  aead := H.aead
  ready := H.ready

/-- A packet of the next phase was opened: the receive side moves on, and the send side follows if
it has not moved already. -/
theorem commitRecv (H : AtGeneration y base send recv sp) :
    AtGeneration y base (if send = recv then send + 1 else send) (recv + 1)
      (sp.commitRecv y) := by
  have hsucc := KeyChain.at_succ H.recv H.aead rfl rfl
  have hlag := H.lag
  have hphase : (!sp.recvKeyPhase) = decide ((recv + 1) % 2 = 1) := by
    rw [H.recvPhase, flip_phase]
  unfold Space.commitRecv
  by_cases heq : send = recv
  · have hdiff : sp.sendKeyPhase ≠ !sp.recvKeyPhase := by
      rw [H.phase_eq_iff.2 heq]
      exact (Bool.not_ne_self _).symm
    rw [if_pos heq, if_pos hdiff]
    have hrot := H.rotateSend heq
    exact { hrot with lag := by omega, recvPhase := hphase, recv := hsucc }
  · have hsame : ¬ sp.sendKeyPhase ≠ !sp.recvKeyPhase := by
      have hne : sp.sendKeyPhase ≠ sp.recvKeyPhase := fun h => heq (H.phase_eq_iff.1 h)
      rw [not_not]
      exact Bool.eq_not_of_ne hne
    rw [if_neg heq, if_neg hsame]
    exact { H with lag := by omega, recvPhase := hphase, recv := hsucc }

end AtGeneration

/-- The keys of the next phase, once prepared, start the chains. -/
theorem atGeneration_prepareNext {y : Crypto} {sp : Space}
    (h : (sp.prepareNext y .application).nextKeysReady = true) (hold : sp.nextKeysReady = false)
    (hphase : sp.sendKeyPhase = false ∧ sp.recvKeyPhase = false) :
    AtGeneration y (sp.prepareNext y .application) 0 0 (sp.prepareNext y .application) := by
  unfold prepareNext at h ⊢
  split at h
  next hready =>
    rw [if_pos hready]
    exact ⟨by omega, hphase.1, hphase.2, ⟨rfl, rfl, rfl, rfl, rfl⟩, ⟨rfl, rfl, rfl, rfl, rfl⟩, rfl,
      hready.2.1, hready.2.2.1, rfl⟩
  next =>
    rw [hold] at h
    cases h

end Space

namespace Connection

/-! ## Which actions change keys -/

def keys (c : Connection) (level : EncryptionLevel) : Space := (c.spaces level).keysOnly

section
variable (c : Connection) (env : Env)

theorem keys_act (hk : a.rekeys = false) : (c.act env a).keys = c.keys := by
  funext l
  have hstep := c.spaceStep_act env a l
  show ((c.act env a).spaces l).keysOnly = (c.spaces l).keysOnly
  generalize (c.act env a).spaces l = sp at hstep
  cases hstep with
  | shortOpened | installed | rotated => cases hk
  | _ => rfl

theorem keys_shortOpened {p : ShortPacket} (h : p.update = false) :
    (c.shortOpened env p).keys = c.keys := by
  refine spaces_update keysOnly rfl ?_
  rw [h]
  rfl

end

end Connection

namespace Space

variable {y : Crypto} {level : EncryptionLevel}

theorem installRecv_of_ready {sp : Space} {aead : Aead} (h : sp.recvKeysReady = true) :
    sp.installRecv y level aead secret = sp := by
  unfold installRecv
  rw [h]
  rfl

theorem installSend_of_ready {sp : Space} {aead : Aead} (h : sp.sendKeysReady = true) :
    sp.installSend y level aead secret = sp := by
  unfold installSend
  rw [h]
  rfl

theorem prepareNext_of_ready {sp : Space} (h : sp.nextKeysReady = true) :
    sp.prepareNext y level = sp := by
  unfold prepareNext
  rw [h]
  exact if_neg fun hready => absurd hready.2.2.2 Bool.false_ne_true

theorem install_frame (y : Crypto) (level : EncryptionLevel) (sp : Space) (aead : Aead)
    (rs ws : Bytes) :
    let sp' := (sp.installRecv y level aead rs).installSend y level aead ws
    sp'.nextKeysReady = sp.nextKeysReady ∧ sp'.sendKeyPhase = sp.sendKeyPhase ∧
      sp'.recvKeyPhase = sp.recvKeyPhase ∧
      (sp.sendKeysReady = true → sp'.sendKeys = sp.sendKeys) ∧
      (sp.recvKeysReady = true → sp'.recvKeys = sp.recvKeys) := by
  unfold installRecv installSend
  cases sp.recvKeysReady <;> cases hs : sp.sendKeysReady <;> cases rs.isEmpty <;>
    cases ws.isEmpty <;> simp [hs]

theorem prepareNext_frame (y : Crypto) (level : EncryptionLevel) (sp : Space) :
    (sp.prepareNext y level).sendKeyPhase = sp.sendKeyPhase ∧
    (sp.prepareNext y level).recvKeyPhase = sp.recvKeyPhase ∧
    (sp.prepareNext y level).sendKeys = sp.sendKeys ∧
    (sp.prepareNext y level).recvKeys = sp.recvKeys := by
  unfold prepareNext
  split <;> exact ⟨rfl, rfl, rfl, rfl⟩

end Space

/-! ## Generations of a run -/

/-- The action moves the receive keys on: a packet of the next key phase opens. -/
def Action.commitsRecv (env : Env) (c : Connection) : Action → Bool
  | .shortPacket dg => (c.openShortPacket env dg).any (·.update)
  | _ => false

/-- The action moves the send keys on: a local update, or a peer's update that finds the send side
behind. -/
def Action.rotatesSend (env : Env) (c : Connection) (a : Action) : Bool :=
  match a with
  | .keyUpdate => (c.initiateKeyUpdate env).1
  | _ => a.commitsRecv env c &&
      ((c.spaces .application).sendKeyPhase != !(c.spaces .application).recvKeyPhase)

/-- What an action does to the keys of a level, and whether it moves the send and the receive side
on. -/
inductive KeyStep (y : Crypto) (level : EncryptionLevel) (sp sp' : Space) :
    (rotates commits : Bool) → Prop where
  | same (h : sp'.keysOnly = sp.keysOnly) : KeyStep y level sp sp' false false
  | installed (aead : Aead) (rs ws : Bytes) (h : sp' = ((sp.installRecv y level aead
      rs).installSend y level aead ws).prepareNext y level) : KeyStep y level sp sp' false false
  | rotated (hready : sp.nextKeysReady = true) (hphase : sp.sendKeyPhase = sp.recvKeyPhase)
      (h : sp' = sp.rotateSend y) : KeyStep y level sp sp' true false
  | committed (hready : sp.nextKeysReady = true)
      (h : sp'.keysOnly = (sp.commitRecv y).keysOnly) :
      KeyStep y level sp sp' (sp.sendKeyPhase != !sp.recvKeyPhase) true

namespace Connection

theorem nextKeysReady_of_update {c : Connection} (h : c.openShortPacket env dg = some p)
    (hupdate : p.update = true) : (c.spaces .application).nextKeysReady = true := by
  unfold openShortPacket at h
  dsimp only at h
  split at h
  · cases h
  split at h
  · cases h
  split at h
  · obtain ⟨payload, -, rfl⟩ := Option.map_eq_some_iff.1 h
    cases hupdate
  · split at h
    · cases h
    next hready => simpa using hready

section
variable (c : Connection) (env : Env) (a : Action)

/-- **Key steps.** What every action does to the Application keys. -/
theorem keyStep_act :
    KeyStep env.toCrypto .application (c.spaces .application) ((c.act env a).spaces .application)
      (a.rotatesSend env c) (a.commitsRecv env c) := by
  cases hk : a.rekeys with
  | false =>
    have hrot : a.rotatesSend env c = false ∧ a.commitsRecv env c = false := by
      cases a <;> first | exact ⟨rfl, rfl⟩ | cases hk
    rw [hrot.1, hrot.2]
    exact .same (congrFun (c.keys_act env hk) .application)
  | true =>
    cases a with
    | installKeys => exact .installed _ _ _ rfl
    | keyUpdate =>
      simp only [act, Action.rotatesSend, initiateKeyUpdate]
      split
      · exact .same rfl
      next h =>
        simp only [Bool.or_eq_true, Bool.not_eq_true', bne_iff_ne, not_or, Bool.not_eq_false,
          not_not] at h
        exact .rotated h.1 h.2 rfl
    | shortPacket dg =>
      simp only [act, Action.rotatesSend, Action.commitsRecv]
      split
      next h =>
        rw [h]
        exact .same rfl
      next p h =>
        rw [h, Option.any_some]
        cases hupdate : p.update with
        | false => exact .same (congrFun (c.keys_shortOpened env hupdate) .application)
        | true =>
          refine .committed (nextKeysReady_of_update h hupdate) ?_
          show (noteOpened (if p.update then _ else _) p.pn).keysOnly = _
          rw [hupdate]
          rfl
    | _ => cases hk

theorem keyStep_act_of_ne (hl : level ≠ .application) :
    KeyStep env.toCrypto level (c.spaces level) ((c.act env a).spaces level) false false := by
  have hupdate (sp : Space) : update c.spaces .application sp level = c.spaces level :=
    update_of_ne hl ..
  cases hk : a.rekeys with
  | false => exact .same (congrFun (c.keys_act env hk) level)
  | true =>
    cases a with
    | installKeys =>
      cases level with
      | initial | earlyData => exact .same rfl
      | handshake => exact .installed _ _ _ rfl
      | application => exact absurd rfl hl
    | keyUpdate =>
      simp only [act, initiateKeyUpdate]
      split
      · exact .same rfl
      · exact .same (congrArg keysOnly (hupdate _))
    | shortPacket dg =>
      simp only [act]
      split
      · exact .same rfl
      · exact .same (congrArg keysOnly (hupdate _))
    | _ => cases hk

theorem keyStep_perform :
    KeyStep env.toCrypto .application (c.spaces .application) ((c.perform env a).spaces .application)
      (!c.faulted && a.rotatesSend env c) (!c.faulted && a.commitsRecv env c) := by
  cases hf : c.faulted with
  | true =>
    rw [perform_of_faulted env hf]
    exact .same rfl
  | false =>
    rw [perform_of_not_faulted env hf]
    exact c.keyStep_act env a

end

theorem perform_shortPacket_of_none {c : Connection} (h : c.openShortPacket env dg = none) :
    c.perform env (.shortPacket dg) = c := by
  have hact : c.act env (.shortPacket dg) = c := by simp only [act, h]
  unfold perform
  rw [hact]
  exact ite_self c

end Connection

theorem Space.AtGeneration.step {y : Crypto} {base sp sp' : Space} {send recv : Nat}
    (H : AtGeneration y base send recv sp) (h : KeyStep y .application sp sp' rotates commits) :
    AtGeneration y base (send + rotates.toNat) (recv + commits.toNat) sp' := by
  cases h with
  | same h => exact H.congr h
  | installed aead rs ws h =>
    obtain ⟨hsend, hrecv, hnext⟩ := H.ready
    rw [installRecv_of_ready hrecv, installSend_of_ready hsend, prepareNext_of_ready hnext] at h
    rwa [h]
  | rotated hready hphase h =>
    rw [h]
    exact H.rotateSend (H.phase_eq_iff.1 hphase)
  | committed hready h =>
    refine AtGeneration.congr ?_ h
    have hcommit := H.commitRecv
    by_cases heq : send = recv
    · rw [if_pos heq] at hcommit
      rwa [H.phase_eq_iff.2 heq, bne_iff_ne.2 (Bool.not_ne_self _).symm]
    · rw [if_neg heq] at hcommit
      have hne : sp.sendKeyPhase ≠ sp.recvKeyPhase := fun h => heq (H.phase_eq_iff.1 h)
      rwa [Bool.eq_not_of_ne hne, bne_self_eq_false]

/-- A space without prepared keys stays in its first generation. -/
theorem KeyStep.of_unprepared {y : Crypto} {sp sp' : Space}
    (h : KeyStep y .application sp sp' rotates commits) (hn : sp.nextKeysReady = false)
    (hphase : sp.sendKeyPhase = false ∧ sp.recvKeyPhase = false) :
    (rotates = false ∧ commits = false) ∧
      (sp'.sendKeyPhase = false ∧ sp'.recvKeyPhase = false) ∧
      (sp.sendKeysReady = true → sp'.sendKeys = sp.sendKeys) ∧
      (sp.recvKeysReady = true → sp'.recvKeys = sp.recvKeys) ∧
      (sp'.nextKeysReady = true → Space.AtGeneration y sp' 0 0 sp') := by
  cases h with
  | same h =>
    have hnext : sp'.nextKeysReady = false := (congrArg nextKeysReady h).trans hn
    refine ⟨⟨rfl, rfl⟩, ⟨(congrArg sendKeyPhase h).trans hphase.1,
      (congrArg recvKeyPhase h).trans hphase.2⟩, fun _ => (congrArg sendKeys h :),
      fun _ => (congrArg recvKeys h :), fun hready => ?_⟩
    rw [hnext] at hready
    cases hready
  | installed aead rs ws h =>
    have hframe := sp.install_frame y .application aead rs ws
    generalize (sp.installRecv y .application aead rs).installSend y .application aead ws = mid
      at h hframe
    obtain ⟨hnext, hsend, hrecv, hsendKeys, hrecvKeys⟩ := hframe
    obtain ⟨hsend', hrecv', hsendKeys', hrecvKeys'⟩ :=
      mid.prepareNext_frame y .application
    have hmid : mid.sendKeyPhase = false ∧ mid.recvKeyPhase = false :=
      ⟨hsend.trans hphase.1, hrecv.trans hphase.2⟩
    subst h
    exact ⟨⟨rfl, rfl⟩, ⟨hsend'.trans hmid.1, hrecv'.trans hmid.2⟩,
      fun hr => hsendKeys'.trans (hsendKeys hr), fun hr => hrecvKeys'.trans (hrecvKeys hr),
      fun hr => atGeneration_prepareNext hr (hnext.trans hn) hmid⟩
  | rotated hready | committed hready => rw [hn] at hready; cases hready

namespace Run

def sendGeneration (env : Env) (trace : List (Connection × Action)) : Nat :=
  trace.countP fun x => !x.1.faulted && x.2.rotatesSend env x.1

def recvGeneration (env : Env) (trace : List (Connection × Action)) : Nat :=
  trace.countP fun x => !x.1.faulted && x.2.commitsRecv env x.1

/-- The Application space in the first state with keys for both directions and their successors. -/
def keyBase (r : Run) : Option Space :=
  ((r.conn :: r.trace.map (·.1)).reverse.map (·.spaces .application)).find? (·.nextKeysReady)

/-- What a step does to the header-protection keys, and what a packet that does not open does. -/
def KeepsKeys (env : Env) (c : Connection) (a : Action) : Prop :=
  let sp := c.spaces .application
  let sp' := (c.perform env a).spaces .application
  (sp.sendKeysReady = true → sp'.sendKeys.hp = sp.sendKeys.hp) ∧
    (sp.recvKeysReady = true → sp'.recvKeys.hp = sp.recvKeys.hp) ∧
    ∀ dg, a = .shortPacket dg → c.openShortPacket env dg = none → c.perform env a = c

structure KeyMachine (env : Env) (r : Run) : Prop where
  lag : recvGeneration env r.trace ≤ sendGeneration env r.trace ∧
    sendGeneration env r.trace ≤ recvGeneration env r.trace + 1
  sendPhase : (r.conn.spaces .application).sendKeyPhase =
    decide (sendGeneration env r.trace % 2 = 1)
  recvPhase : (r.conn.spaces .application).recvKeyPhase =
    decide (recvGeneration env r.trace % 2 = 1)
  /-- The keys in use and those prepared are of the generations counted, from the first state with
  prepared keys on; before that, no generation has passed. -/
  keys : ∀ base, r.keyBase = some base → Space.AtGeneration env.toCrypto base
    (sendGeneration env r.trace) (recvGeneration env r.trace) (r.conn.spaces .application)
  unprepared : r.keyBase = none → (r.conn.spaces .application).nextKeysReady = false ∧
    sendGeneration env r.trace = 0 ∧ recvGeneration env r.trace = 0
  kept : AtEach (fun x _ => KeepsKeys env x.1 x.2) r.trace

theorem countP_cons_toNat (p : Connection × Action → Bool) (x : Connection × Action)
    (past : List (Connection × Action)) :
    (x :: past).countP p = past.countP p + (p x).toNat := by
  rw [countP_cons]
  cases p x <;> rfl

section
variable (env : Env) (x : Connection × Action) (past : List (Connection × Action))

theorem sendGeneration_cons : sendGeneration env (x :: past) =
      sendGeneration env past + (!x.1.faulted && x.2.rotatesSend env x.1).toNat :=
  countP_cons_toNat ..

theorem recvGeneration_cons : recvGeneration env (x :: past) =
      recvGeneration env past + (!x.1.faulted && x.2.commitsRecv env x.1).toNat :=
  countP_cons_toNat ..

end

theorem keyBase_perform (r : Run) (env : Env) (a : Action) : (r.perform env a).keyBase =
    r.keyBase.or (if ((r.conn.perform env a).spaces .application).nextKeysReady then
      some ((r.conn.perform env a).spaces .application) else none) := by
  unfold keyBase perform
  rw [map_cons, reverse_cons, map_append, find?_append]
  rw [map_singleton, find?_singleton]

theorem KeyMachine.of_atGeneration (hbase : r.keyBase = some base)
    (H : Space.AtGeneration env.toCrypto base (sendGeneration env r.trace)
      (recvGeneration env r.trace) (r.conn.spaces .application))
    (hkept : AtEach (fun x _ => KeepsKeys env x.1 x.2) r.trace) : KeyMachine env r where
  lag := H.lag
  sendPhase := H.sendPhase
  recvPhase := H.recvPhase
  keys base' h := by
    rw [hbase] at h
    cases h
    exact H
  unprepared h := by
    rw [hbase] at h
    cases h
  kept := hkept

theorem KeyMachine.step {r : Run} (H : KeyMachine env r) (a : Action) :
    KeyMachine env (r.perform env a) := by
  have hstep := r.conn.keyStep_perform env a
  have hfail (dg : Bytes) (ha : a = .shortPacket dg) (hnone : r.conn.openShortPacket env dg = none) :
      r.conn.perform env a = r.conn := by
    rw [ha]
    exact Connection.perform_shortPacket_of_none hnone
  have hkept (h : KeepsKeys env r.conn a) :
      AtEach (fun x _ => KeepsKeys env x.1 x.2) (r.perform env a).trace :=
    atEach_cons.2 ⟨h, H.kept⟩
  have hsend : sendGeneration env (r.perform env a).trace = _ :=
    sendGeneration_cons env (r.conn, a) r.trace
  have hrecv : recvGeneration env (r.perform env a).trace = _ :=
    recvGeneration_cons env (r.conn, a) r.trace
  have hnext := r.keyBase_perform env a
  cases hbase : r.keyBase with
  | some base =>
    have hold := H.keys base hbase
    have hnew := hold.step hstep
    rw [← hsend, ← hrecv] at hnew
    rw [hbase] at hnext
    refine .of_atGeneration hnext hnew (hkept ⟨fun _ => ?_, fun _ => ?_, hfail⟩)
    · rw [hnew.send.keys, hold.send.keys, KeyChain.hp_keysAt, KeyChain.hp_keysAt]
    · rw [hnew.recv.keys, hold.recv.keys, KeyChain.hp_keysAt, KeyChain.hp_keysAt]
  | none =>
    obtain ⟨hready, hs, hr⟩ := H.unprepared hbase
    have hphase : (r.conn.spaces .application).sendKeyPhase = false ∧
        (r.conn.spaces .application).recvKeyPhase = false := by
      rw [H.sendPhase, H.recvPhase, hs, hr]
      exact ⟨rfl, rfl⟩
    obtain ⟨⟨hrot, hcom⟩, hphase', hsendKeys, hrecvKeys, hprepared⟩ :=
      hstep.of_unprepared hready hphase
    have hkept := hkept ⟨fun h => by rw [hsendKeys h], fun h => by rw [hrecvKeys h], hfail⟩
    rw [hrot, hs] at hsend
    rw [hcom, hr] at hrecv
    rw [hbase] at hnext
    cases hready' : ((r.conn.perform env a).spaces .application).nextKeysReady with
    | true =>
      rw [hready'] at hnext
      refine .of_atGeneration hnext ?_ hkept
      rw [hsend, hrecv]
      exact hprepared hready'
    | false =>
      rw [hready'] at hnext
      refine ⟨?_, ?_, ?_, fun base h => ?_, fun _ => ⟨hready', hsend, hrecv⟩, hkept⟩
      · rw [hsend, hrecv]
        exact ⟨Nat.le_refl _, Nat.zero_le _⟩
      · rw [hsend]
        exact hphase'.1
      · rw [hrecv]
        exact hphase'.2
      · rw [hnext] at h
        cases h

/-- **Key generations.** In every run of a new connection the send side is level with the receive
side or one generation ahead, the phase bits are the parities of the generations, the keys in use
and the keys prepared are those of the generation counted and of the next one, the header-protection
keys never change, and a packet that does not open changes nothing. -/
theorem key_generations (env : Env) (clientDcid clientScid serverScid : Bytes)
    (tp : TransportParameters) (as : List Action) :
    KeyMachine env (performAll env ⟨.create env clientDcid clientScid serverScid tp, []⟩ as) := by
  have hinit : KeyMachine env ⟨.create env clientDcid clientScid serverScid tp, []⟩ :=
    ⟨⟨Nat.le_refl _, Nat.zero_le _⟩, rfl, rfl, (fun base h => nomatch h), fun _ => ⟨rfl, rfl, rfl⟩,
      atEach_nil _⟩
  exact (reaches_performAll _ as).invariant (P := fun _ _ => True) (fun r a h _ => h.step a) hinit
    fun _ _ => trivial

end Run

end Spaznet.Quic
