import Spaznet.Quic.Connection.Plain
import Spaznet.Quic.Connection.Spaces

/-!
# Datagrams that do not open

A datagram none of whose packets opens passes through the packet loop and leaves the connection as
it was, apart from the clock and the count of received bytes. If the loop runs to its end, the
passes over TLS and the send queues follow as after any datagram: they have nothing to do with what
was received, and may find work that was pending before.
-/

namespace Spaznet.Quic

def Action.isPass : Action → Bool
  | .installKeys | .advanceTls | .pullCrypto | .send _ | .establish => true
  | _ => false

/-- What a level has received: packet numbers, apart from whether an ACK is owed, and the CRYPTO
stream. -/
def Space.intake (sp : Space) : Nat × Bool × PnSpace × OrdMap Bytes × Nat :=
  (sp.largestRecvPn, sp.anyRecv, { sp.acks with needsAck := false }, sp.cryptoRecv,
    sp.cryptoReadOffset)

namespace Connection

/-- How the packet loop ends on a datagram none of whose packets opens: whether the passes follow.
None if a packet opens, or is read outside its buffer. -/
def unopened (c : Connection) (env : Env) (datagram : Bytes) : Nat → Nat → Option Bool
  | 0, _ => some true
  | fuel + 1, off =>
    match datagram[off]? with
    | none => some true
    | some first =>
      if first &&& 0x80 ≠ 0 then
        match (c.openLongPacket env datagram off).result with
        | .abandon => some false
        | .skip cursor => unopened c env datagram fuel cursor
        | .opened _ _ _ _ | .fault => none
      else if (c.openShortPacket env (datagram.drop off)).isSome then none
      else some false

/-- Opening reads keys and connection ids only. -/
theorem unopened_noteDatagram (c : Connection) (env : Env) (size : Nat) (datagram : Bytes)
    (fuel off : Nat) :
    (c.noteDatagram env size).unopened env datagram fuel off =
      c.unopened env datagram fuel off := by
  induction fuel generalizing off with
  | zero => rfl
  | succ fuel ih =>
    have hlong : (c.noteDatagram env size).openLongPacket env datagram off =
      c.openLongPacket env datagram off := rfl
    have hshort : (c.noteDatagram env size).openShortPacket env (datagram.drop off) =
      c.openShortPacket env (datagram.drop off) := rfl
    unfold unopened
    simp only [hlong, hshort, ih]

/-! ## What the passes leave alone -/

def forgetPasses (c : Connection) : Connection :=
  { c.forgetOutbound with tls := {}, state := .handshaking }

theorem forgetPasses_act (c : Connection) (env : Env) (h : a.isPass = true) :
    (c.act env a).forgetPasses = c.forgetPasses := by
  cases a with
  | send level =>
    have hsend := c.forgetOutbound_buildAndSend env level
    unfold forgetPasses
    rw [act, hsend]
  | pullCrypto | establish | installKeys | advanceTls =>
    exact c.act_frame env forgetPasses fun _ => rfl
  | _ => cases h

theorem intake_installed (y : Crypto) (level : EncryptionLevel) (aead : Aead) (rs ws : Bytes)
    (sp : Space) :
    (((sp.installRecv y level aead rs).installSend y level aead ws).prepareNext y level).intake =
      sp.intake := by
  have hrecv : (sp.installRecv y level aead rs).intake = sp.intake := by
    unfold Space.installRecv
    split <;> rfl
  have hsend (sp : Space) : (sp.installSend y level aead ws).intake = sp.intake := by
    unfold Space.installSend
    split <;> rfl
  have hnext (sp : Space) : (sp.prepareNext y level).intake = sp.intake := by
    unfold Space.prepareNext
    split <;> rfl
  rw [hnext, hsend, hrecv]

theorem intake_act (c : Connection) (env : Env) (h : a.isPass = true) (level : EncryptionLevel) :
    ((c.act env a).spaces level).intake = (c.spaces level).intake := by
  have hstep := c.spaceStep_act env a level
  revert hstep
  generalize (c.act env a).spaces level = sp'
  intro hstep
  cases hstep with
  | same => rfl
  | installed => exact intake_installed ..
  | pulled | sent => rfl
  | _ => cases h

end Connection

namespace Run

theorem passes_performAll (env : Env) (r : Run) (h : ∀ a ∈ as, a.isPass = true) :
    (r.performAll env as).conn.forgetPasses = r.conn.forgetPasses ∧
      ∀ level, ((r.performAll env as).conn.spaces level).intake =
        (r.conn.spaces level).intake := by
  induction as generalizing r with
  | nil => exact ⟨rfl, fun _ => rfl⟩
  | cons a as ih =>
    obtain ⟨hforget, hintake⟩ := ih (r.perform env a) fun b hb => h b (by simp [hb])
    have ha := h a (by simp)
    refine ⟨hforget.trans ?_, fun level => (hintake level).trans ?_⟩
    · show (r.conn.perform env a).forgetPasses = _
      exact r.conn.perform_rule env a (fun _ => rfl) fun _ => r.conn.forgetPasses_act env ha
    · show ((r.conn.perform env a).spaces level).intake = _
      exact r.conn.perform_rule env a (fun _ => rfl) fun _ => r.conn.intake_act env ha level

/-! ## The packet loop -/

theorem processLongPacket_unopened (env : Env) {r : Run} (datagram : Bytes) (off : Nat) :
    ((r.conn.openLongPacket env datagram off).result = .abandon →
        (r.processLongPacket env datagram off).1 = none ∧
          (r.processLongPacket env datagram off).2.conn = r.conn) ∧
      ∀ cursor, (r.conn.openLongPacket env datagram off).result = .skip cursor →
        (r.processLongPacket env datagram off).1 = some cursor ∧
          (r.processLongPacket env datagram off).2.conn = r.conn := by
  constructor
  · intro h
    simp [processLongPacket, perform, Connection.perform, Connection.act, h]
  · intro cursor h
    simp [processLongPacket, perform, Connection.perform, Connection.act, h]

theorem processShortPacket_unopened {r : Run}
    (h : r.conn.openShortPacket env dg = none) : (r.processShortPacket env dg).conn = r.conn := by
  simp only [processShortPacket, perform, Connection.perform, Connection.act, h, ite_self]

theorem walkPackets_unopened (env : Env) (datagram : Bytes) (fuel off : Nat) (r : Run)
    (hf : r.conn.faulted = false) (h : r.conn.unopened env datagram fuel off = some passes) :
    (walkPackets env datagram fuel off r).1 = passes ∧
      (walkPackets env datagram fuel off r).2.conn = r.conn := by
  induction fuel generalizing off r with
  | zero => exact ⟨Option.some.inj h, rfl⟩
  | succ fuel ih =>
    obtain ⟨habandon, hskip⟩ := processLongPacket_unopened env datagram off
    unfold Connection.unopened at h
    unfold walkPackets
    cases hfirst : datagram[off]? with
    | none =>
      simp only [hfirst] at h
      exact ⟨Option.some.inj h, rfl⟩
    | some first =>
      simp only [hfirst] at h ⊢
      split at h
      next hlong =>
        rw [if_pos hlong]
        generalize r.processLongPacket env datagram off = p at habandon hskip
        obtain ⟨next, r'⟩ := p
        split at h
        next hresult =>
          obtain ⟨rfl, hr'⟩ := habandon hresult
          exact ⟨Option.some.inj h, hr'⟩
        next cursor hresult =>
          obtain ⟨rfl, hr'⟩ := hskip cursor hresult
          obtain ⟨hflag, hconn⟩ := ih cursor r' (by rw [hr', hf]) (by rw [hr', h])
          exact ⟨hflag, hconn.trans hr'⟩
        · cases h
        · cases h
      next hshort =>
        rw [if_neg hshort]
        split at h
        · cases h
        next hopen =>
          exact ⟨Option.some.inj h,
            processShortPacket_unopened (Option.not_isSome_iff_eq_none.1 hopen)⟩

/-- The passes of `on_datagram`, from the state the packet loop leaves. -/
theorem passes_flush (env : Env) (r : Run) (as : List Action) (fuel : Connection → Nat)
    (h : ∀ a ∈ as, a.isPass = true) :
    ((r.performAll env as).flush env fuel).conn.forgetPasses = r.conn.forgetPasses ∧
      ∀ level, (((r.performAll env as).flush env fuel).conn.spaces level).intake =
        (r.conn.spaces level).intake := by
  obtain ⟨hforget, hintake⟩ := passes_performAll env r h
  obtain ⟨bs, hbs, heq⟩ : ReachesBy env IsSend (r.performAll env as) _ := reachesBy_flush fuel _
  have hsend (b : Action) (hb : b ∈ bs) : b.isPass = true := by
    rcases hbs b hb with ⟨level, rfl⟩ | rfl <;> rfl
  rw [heq]
  obtain ⟨hforget', hintake'⟩ := passes_performAll env (r.performAll env as) hsend
  exact ⟨hforget'.trans hforget, fun level => (hintake' level).trans (hintake level)⟩

/-- **A datagram that does not open.** The packet loop adds the size of the datagram to the count
of received bytes; of the rest it touches the clock and the time of the last activity only. Where
the loop ends early that is all. Otherwise the passes follow, and they leave alone what was
received. -/
theorem onDatagram_unopened {env : Env} {r : Run} {datagram : Bytes}
    (hf : r.conn.faulted = false)
    (h : r.conn.unopened env datagram datagram.length 0 = some passes) :
    (r.conn.state = .closed ∨ r.conn.state = .draining) ∧ r.onDatagram env datagram = r ∨
      ∃ walked : Run,
        walked.conn = { r.conn with
          lastActivity := walked.conn.lastActivity
          clockReads := walked.conn.clockReads
          recvBytesTotal := r.conn.recvBytesTotal + datagram.length } ∧
        (r.onDatagram env datagram =
          if passes then
            (walked.performAll env [.installKeys, .advanceTls, .installKeys, .pullCrypto]).flush env
              fun _ => 64
          else walked) ∧
        (r.onDatagram env datagram).conn.forgetPasses = walked.conn.forgetPasses ∧
        ∀ level, ((r.onDatagram env datagram).conn.spaces level).intake =
          (r.conn.spaces level).intake := by
  by_cases hstate : r.conn.state = .closed ∨ r.conn.state = .draining
  · exact .inl ⟨hstate, if_pos hstate⟩
  have hnote : (r.perform env (.noteDatagram datagram.length)).conn =
      r.conn.noteDatagram env datagram.length :=
    Connection.perform_of_not_faulted env hf _
  obtain ⟨hflag, hconn⟩ := walkPackets_unopened env datagram datagram.length 0
    (r.perform env (.noteDatagram datagram.length)) (by rw [hnote]; exact hf)
    (by rw [hnote, Connection.unopened_noteDatagram, h])
  rw [hnote] at hconn
  have heq : r.onDatagram env datagram = _ := if_neg hstate
  generalize walkPackets env datagram datagram.length 0
    (r.perform env (.noteDatagram datagram.length)) = p at hflag hconn heq
  obtain ⟨flag, walked⟩ := p
  subst hflag
  have hspaces (level : EncryptionLevel) :
      (walked.conn.spaces level).intake = (r.conn.spaces level).intake := by rw [hconn]; rfl
  refine .inr ⟨walked, ?_, ?_⟩
  · rw [hconn]
    rfl
  · cases flag with
    | false =>
      rw [heq]
      exact ⟨rfl, rfl, hspaces⟩
    | true =>
      obtain ⟨hforget, hintake⟩ := passes_flush env walked
        [.installKeys, .advanceTls, .installKeys, .pullCrypto] (fun _ => 64)
        (by simp [Action.isPass])
      rw [heq]
      exact ⟨rfl, hforget, fun level => (hintake level).trans (hspaces level)⟩

/-- An Initial packet too short for a header-protection sample. -/
def shortInitial : Bytes := [0xc0, 0, 0, 0, 1, 0, 0, 0, 1, 0]

/-- A new connection counts the bytes of a packet that is too short to be opened. -/
theorem onDatagram_unopened_shortInitial :
    ((onDatagram Env.plain ⟨.create Env.plain [] [] [] {}, []⟩ shortInitial).conn.spaces
      .initial).intake = ((Connection.create Env.plain [] [] [] {}).spaces .initial).intake := by
  have hopen : (Connection.create Env.plain [] [] [] {}).unopened Env.plain shortInitial
      shortInitial.length 0 = some true := by decide +kernel
  rcases onDatagram_unopened (r := ⟨.create Env.plain [] [] [] {}, []⟩) rfl hopen with h | h
  · exact absurd h.1 (by decide)
  · obtain ⟨-, -, -, -, hintake⟩ := h
    exact hintake .initial

/-- A pending close leaves with the next datagram, even if no packet of that opens: a packet number
is used up. -/
theorem nextPn_moves_unopened :
    let r := ofEvents Env.plain (.create Env.plain [] [] [] {}) [.closeWithError 0 false [] 0]
    r.conn.unopened Env.plain shortInitial shortInitial.length 0 = some true ∧
      (r.onDatagram Env.plain shortInitial).conn.nextPn .initial ≠ r.conn.nextPn .initial := by
  decide +kernel

end Run

end Spaznet.Quic
