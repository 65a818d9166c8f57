import Spaznet.Quic.Connection.Plain
import Spaznet.Quic.Connection.Settle

/-!
# Confirmation of the handshake

HANDSHAKE_DONE goes out once. The record of the packet that carries it does not name it, so that
declaring the packet lost does not bring it back. The frame is followed through a run by the number
of that packet.
-/

namespace Spaznet.Quic

open List Option Action Connection

namespace Action

/-- The number of the packet with HANDSHAKE_DONE that an action sends. -/
def donePn? (env : Env) (c : Connection) : Action → Option Nat
  | .send level =>
    if c.faulted = false ∧ (c.buildAndSend env level).datagram.isSome = true ∧
        Frame.handshakeDone ∈ (c.nextFrames level).getD [] then some (c.nextPn level)
    else none
  | _ => none

/-- The action acknowledges a 1-RTT packet that is in flight. -/
def Acks (c : Connection) (pn : Nat) : Action → Prop
  | .frame .application (.ack f) =>
    c.faulted = false ∧ f.covers pn = true ∧ ((c.sent .application).find? pn).isSome = true
  | _ => False

/-- Loss detection or a probe timeout takes the 1-RTT packet out of flight. -/
def Loses (env : Env) (c : Connection) (pn : Nat) : Action → Prop
  | .frame .application (.ack f) => f.firstRange ≤ f.largestAcked ∧
    (c.afterAcks env .application f).overdue env .application pn = true
  | .checkPto => c.ptoDue env .application = true ∧
    ((c.sent .application).find? pn).any (·.ackEliciting) = true
  | _ => False

end Action

namespace Connection

variable {c : Connection} {env : Env} {pn : Nat} {a : Action}

/-! ## The flag -/

theorem sentHandshakeDone_act (c : Connection) (env : Env) (hs : ∀ level, a ≠ .send level) :
    (c.act env a).sentHandshakeDone = c.sentHandshakeDone := by
  refine c.act_frame env (·.sentHandshakeDone) fun c => ?_
  cases a with
  | frame level f => cases f <;> rfl
  | send level => exact absurd rfl (hs level)
  | _ => rfl

theorem handshakeDone_mem_frames (c : Connection) (level : EncryptionLevel) :
    Frame.handshakeDone ∈ (c.collect level).1.frames ↔
      (c.collect level).1.handshakeDone = true := by
  have hnone : Frame.handshakeDone ∉ (c.collect level).1.control := by
    intro h
    simpa using control_collect h
  simp [Outgoing.frames, hnone]

theorem handshakeDone_collect (h : (c.collect level).1.handshakeDone = true) :
    level = .application ∧ c.sentHandshakeDone = false := by
  unfold collect at h
  dsimp only at h
  split at h
  next happ =>
    obtain ⟨_, hack⟩ := collectAck_eq (collectStreams
      { c with cryptoPending := Function.update c.cryptoPending level [] }).2 level
    rw [hack] at h
    simp only [Bool.and_eq_true, Bool.not_eq_true'] at h
    exact ⟨happ, h.2⟩
  next => cases h

theorem sentHandshakeDone_collect (c : Connection) (level : EncryptionLevel) :
    (c.collect level).2.sentHandshakeDone = c.sentHandshakeDone := by
  obtain ⟨_, _, _, _, _, _, _, _, _, _, h⟩ := c.collect_eq level
  rw [h]

/-- A send sets the flag exactly if a packet with the frame goes out. It goes out at the 1-RTT
level, out of the queues, while the flag is not set. -/
theorem sentHandshakeDone_buildAndSend (c : Connection) (env : Env) (hf : c.faulted = false)
    (level : EncryptionLevel) :
    (c.buildAndSend env level).conn.sentHandshakeDone =
        (c.sentHandshakeDone || ((send level).donePn? env c).isSome) ∧
      (((send level).donePn? env c).isSome = true → level = .application ∧
        c.sentHandshakeDone = false ∧ c.pendingClose = none) := by
  have hdone : ((send level).donePn? env c).isSome =
      ((c.buildAndSend env level).datagram.isSome &&
        decide (Frame.handshakeDone ∈ (c.nextFrames level).getD [])) := by
    simp only [donePn?, hf]
    split
    next h => simp [h.2]
    next h => simpa using h
  rw [hdone]
  have hcollect := c.sentHandshakeDone_collect level
  refine c.sends_rule env level fun res hsends => ?_
  cases hsends with
  | idle | closeLost => exact ⟨(Bool.or_false _).symm, nofun⟩
  | drained | lost => exact ⟨hcollect.trans (Bool.or_false _).symm, nofun⟩
  | close hclose =>
    have hnot : Frame.handshakeDone ∉ (c.nextFrames level).getD [] := by
      cases hframes : c.nextFrames level with
      | none => exact not_mem_nil
      | some frames =>
        obtain ⟨hopen, -⟩ | ⟨-, f, -, rfl⟩ := nextFrames_cases hframes
        · exact absurd hopen hclose
        · simp
    rw [decide_eq_false hnot, Bool.and_false, Bool.or_false]
    exact ⟨rfl, nofun⟩
  | sent hopen hframes =>
    rw [hframes, getD_some, isSome_some, Bool.true_and]
    have hmem := handshakeDone_mem_frames c level
    refine ⟨?_, fun h => ?_⟩
    · rw [← hcollect, Bool.eq_iff_iff.mpr (decide_eq_true_iff.trans hmem)]
      rfl
    · obtain ⟨happ, hflag⟩ := handshakeDone_collect (hmem.mp (of_decide_eq_true h))
      exact ⟨happ, hflag, hopen⟩

/-! ## The packet -/

/-- A packet in flight stays there, unless the action acknowledges or loses it. -/
theorem find?_act_of_kept (hf : c.faulted = false) (hs : ∀ level, a ≠ .send level)
    (h : (c.sent .application).find? pn = some r) (hacks : ¬ a.Acks c pn)
    (hloses : ¬ a.Loses env c pn) : ((c.act env a).sent .application).find? pn = some r := by
  cases hack : a.ack? with
  | some x =>
    obtain ⟨level, f⟩ := x
    obtain rfl := ack?_eq_some hack
    by_cases hl : level = .application
    · subst hl
      have hcovers : f.covers pn ≠ true := fun hcovers => hacks ⟨hf, hcovers, by rw [h]; rfl⟩
      rw [act, onFrame, find?_onAckFrame, if_neg (fun ho => ho.elim hcovers hloses), h]
    · rw [act, onFrame, sent_onAckFrame_of_ne c env level f (Ne.symm hl), h]
  | none =>
    by_cases hpto : a = .checkPto
    · subst hpto
      rw [act, find?_checkPto]
      split
      next hdue =>
        have hnot : r.ackEliciting = false := by
          by_contra hr
          exact hloses ⟨hdue, by simpa [h] using hr⟩
        rw [h, filter_some_pos (by simp [hnot])]
      next => exact h
    · rw [(c.sent_congestion_act env hs hack hpto).1, h]

theorem find?_of_overdue (h : c.overdue env level pn = true) :
    ((c.sent level).find? pn).isSome = true := by
  obtain ⟨-, h⟩ := Bool.and_eq_true_iff.mp h
  obtain ⟨e, he, heq⟩ := any_eq_true.mp h
  obtain rfl := beq_iff_eq.mp heq
  have hmem : e ∈ (c.sent level).entries :=
    (takeWhile_sublist _).mem (mem_of_mem_filter he)
  rw [show (c.sent level).find? e.1 = some e.2 from OrdMap.mem_entries.1 hmem]
  rfl

theorem find?_act_of_loses (h : a.Loses env c pn) :
    ((c.act env a).sent .application).find? pn = none ∧ ¬ a.Acks c pn := by
  unfold Action.Loses at h
  split at h
  next f =>
    refine ⟨by rw [act, onFrame, find?_onAckFrame, if_pos (.inr h)], ?_⟩
    rintro ⟨-, hcovers, -⟩
    have hflight := find?_of_overdue h.2
    rw [sent_afterAcks, find?_foldl_ackRange, if_pos (AckFrame.covers_iff.mp hcovers)] at hflight
    cases hflight
  next =>
    refine ⟨?_, fun hacks => hacks⟩
    obtain ⟨hdue, hany⟩ := h
    rw [act, find?_checkPto, if_pos hdue]
    obtain ⟨r, hr, hack⟩ := (any_eq_true _ _).mp hany
    rw [hr, filter_some_neg (by simp [hack])]
  next => exact h.elim

theorem find?_act_of_acks (h : a.Acks c pn) (env : Env) :
    ((c.act env a).sent .application).find? pn = none := by
  unfold Action.Acks at h
  split at h
  next f => rw [act, onFrame, find?_onAckFrame, if_pos (.inl h.2.1)]
  next => exact h.elim

/-- Sending takes nothing out of flight, and puts in flight what goes out under the next number. -/
theorem find?_buildAndSend (hfresh : PnFresh c) (env : Env) (level : EncryptionLevel)
    (hpn : pn < c.nextPn .application) :
    ((c.buildAndSend env level).conn.sent .application).find? pn =
      (c.sent .application).find? pn := by
  have hrec := c.recorded_buildAndSend env level
  by_cases hout : c.pendingClose = none ∧ (c.buildAndSend env level).datagram.isSome = true
  · obtain ⟨r, -, hfind⟩ := hrec.find? hfresh hout
    rw [hfind, if_neg]
    rintro ⟨rfl, rfl⟩
    exact absurd hpn (Nat.lt_irrefl _)
  · rw [hrec.kept hout]

end Connection

namespace Run

/-- The numbers of the packets that carried HANDSHAKE_DONE. -/
def carriers (env : Env) (trace : List (Connection × Action)) : List Nat :=
  trace.filterMap fun x => x.2.donePn? env x.1

def Acknowledged (trace : List (Connection × Action)) (pn : Nat) : Prop :=
  ∃ x ∈ trace, x.2.Acks x.1 pn

/-- HANDSHAKE_DONE is still to be sent, or in a packet that is in flight or was acknowledged. -/
def Secured (env : Env) (r : Run) : Prop :=
  r.conn.sentHandshakeDone = true → ∃ pn ∈ carriers env r.trace,
    ((r.conn.sent .application).find? pn).isSome = true ∨ Acknowledged r.trace pn

/-- The action does not lose a packet in flight that carries HANDSHAKE_DONE. -/
def KeepsDone (env : Env) (x : Connection × Action) (past : List (Connection × Action)) : Prop :=
  x.1.faulted = false → ∀ pn ∈ carriers env past,
    ((x.1.sent .application).find? pn).isSome = true → ¬ x.2.Loses env x.1 pn

structure DoneTracked (env : Env) (r : Run) : Prop where
  fresh : r.conn.PnFresh
  secured : Secured env r
  flag : ∀ pn ∈ carriers env r.trace, r.conn.sentHandshakeDone = true
  one : ∀ pn ∈ carriers env r.trace, ∀ pn' ∈ carriers env r.trace, pn = pn'
  acked : ∀ pn, Acknowledged r.trace pn →
    pn < r.conn.nextPn .application ∧ (r.conn.sent .application).find? pn = none

variable {env : Env} {r : Run}

theorem carriers_cons (env : Env) (x : Connection × Action) (past : List (Connection × Action)) :
    carriers env (x :: past) = (x.2.donePn? env x.1).toList ++ carriers env past := by
  unfold carriers
  rw [filterMap_cons]
  split
  next h => rw [h]; rfl
  next h => rw [h]; rfl

theorem acknowledged_cons : Acknowledged (x :: past) pn ↔ x.2.Acks x.1 pn ∨ Acknowledged past pn :=
  exists_mem_cons_iff ..

/-! ## Steps -/

theorem donePn?_of_ne (env : Env) (c : Connection) {a : Action} (hs : ∀ level, a ≠ .send level) :
    a.donePn? env c = none := by
  unfold donePn?
  split
  · exact absurd rfl (hs _)
  · rfl

theorem DoneTracked.perform_of_faulted (h : DoneTracked env r) (hf : r.conn.faulted = true)
    (a : Action) : DoneTracked env (r.perform env a) := by
  have hdone : a.donePn? env r.conn = none := by
    unfold donePn?
    split
    · exact if_neg fun hsent => absurd hf (by simp [hsent.1])
    · rfl
  have hacks (pn : Nat) : ¬ a.Acks r.conn pn := by
    unfold Action.Acks
    split
    · exact fun hacks => absurd hf (by simp [hacks.1])
    · exact fun hacks => hacks
  have hconn : (r.perform env a).conn = r.conn := r.conn.perform_of_faulted env hf a
  have hcarriers : carriers env (r.perform env a).trace = carriers env r.trace := by
    refine (carriers_cons env (r.conn, a) r.trace).trans ?_
    rw [hdone]
    rfl
  have hacked (pn : Nat) : Acknowledged (r.perform env a).trace pn ↔ Acknowledged r.trace pn :=
    acknowledged_cons.trans (or_iff_right (hacks pn))
  obtain ⟨hfresh, hsecured, hflag, hone, hgone⟩ := h
  refine ⟨?_, ?_, ?_, ?_, ?_⟩
  · rwa [hconn]
  · unfold Secured
    rw [hconn, hcarriers]
    simp only [hacked]
    exact hsecured
  · rwa [hconn, hcarriers]
  · rwa [hcarriers]
  · simp only [hacked, hconn]
    exact hgone

section
variable (h : DoneTracked env r) (hf : r.conn.faulted = false)
include h hf

theorem DoneTracked.secured_send (level : EncryptionLevel) :
    Secured env (r.perform env (.send level)) := by
  have hconn : (r.perform env (.send level)).conn = (r.conn.buildAndSend env level).conn :=
    r.conn.perform_of_not_faulted env hf _
  obtain ⟨hflag, hout⟩ := r.conn.sentHandshakeDone_buildAndSend env hf level
  unfold Secured
  rw [hconn, hflag]
  intro hset
  have hcarriers : carriers env (r.perform env (.send level)).trace = _ :=
    carriers_cons env (r.conn, .send level) r.trace
  rw [hcarriers]
  cases hdone : (send level).donePn? env r.conn with
  | some pn =>
    rw [hdone] at hout
    obtain ⟨rfl, -, hclose⟩ := hout rfl
    refine ⟨pn, mem_cons_self, .inl ?_⟩
    dsimp only [donePn?] at hdone
    split at hdone
    next hsent =>
      obtain rfl := Option.some.inj hdone
      obtain ⟨rec, -, hfind⟩ := (r.conn.recorded_buildAndSend env .application).find? h.fresh
        ⟨hclose, hsent.2.1⟩
      rw [hfind, if_pos ⟨rfl, rfl⟩]
      rfl
    next => cases hdone
  | none =>
    rw [hdone, isSome_none, Bool.or_false] at hset
    obtain ⟨pn, hpn, hkept⟩ := h.secured hset
    refine ⟨pn, hpn, hkept.imp (fun hsome => ?_) fun hacked => acknowledged_cons.mpr (.inr hacked)⟩
    obtain ⟨rec, hrec⟩ := isSome_iff_exists.mp hsome
    rwa [find?_buildAndSend h.fresh env level (h.fresh _ _ _ hrec)]

/-- A step keeps HANDSHAKE_DONE secured exactly if it does not lose the packet. -/
theorem DoneTracked.secured_perform_iff (a : Action) :
    Secured env (r.perform env a) ↔ KeepsDone env (r.conn, a) r.trace := by
  rcases a.send_or_ne with ⟨level, rfl⟩ | hs
  · exact iff_of_true (h.secured_send hf level) fun _ _ _ _ hloses => hloses
  have hconn : (r.perform env a).conn = r.conn.act env a := r.conn.perform_of_not_faulted env hf a
  have hcarriers : carriers env (r.perform env a).trace = carriers env r.trace := by
    refine (carriers_cons env (r.conn, a) r.trace).trans ?_
    rw [donePn?_of_ne env r.conn hs]
    rfl
  unfold Secured
  rw [hconn, hcarriers, r.conn.sentHandshakeDone_act env hs]
  constructor
  · intro hsecured _ pn hpn hflight hloses
    obtain ⟨hgone, hnot⟩ := find?_act_of_loses hloses
    obtain ⟨pn', hpn', hkept⟩ := hsecured (h.flag pn hpn)
    obtain rfl := h.one pn hpn pn' hpn'
    rcases hkept with hkept | hacked
    · rw [hgone] at hkept
      cases hkept
    rcases acknowledged_cons.mp hacked with hacks | hpast
    · exact hnot hacks
    · rw [(h.acked pn hpast).2] at hflight
      cases hflight
  · intro hkeeps hset
    obtain ⟨pn, hpn, hkept⟩ := h.secured hset
    refine ⟨pn, hpn, ?_⟩
    rcases hkept with hflight | hpast
    · obtain ⟨rec, hrec⟩ := isSome_iff_exists.mp hflight
      by_cases hacks : a.Acks r.conn pn
      · exact .inr (acknowledged_cons.mpr (.inl hacks))
      · rw [find?_act_of_kept hf hs hrec hacks (hkeeps hf pn hpn hflight)]
        exact .inl rfl
    · exact .inr (acknowledged_cons.mpr (.inr hpast))

theorem DoneTracked.perform (a : Action) (hsecured : Secured env (r.perform env a)) :
    DoneTracked env (r.perform env a) := by
  have hfresh : (r.perform env a).conn.PnFresh := h.fresh.perform env a
  have hconn : (r.perform env a).conn = r.conn.act env a := r.conn.perform_of_not_faulted env hf a
  have hcarriers : carriers env (r.perform env a).trace = _ :=
    carriers_cons env (r.conn, a) r.trace
  rcases a.send_or_ne with ⟨level, rfl⟩ | hs
  · obtain ⟨hflag, hout⟩ := r.conn.sentHandshakeDone_buildAndSend env hf level
    have hsent : (r.perform env (.send level)).conn = (r.conn.buildAndSend env level).conn := hconn
    refine ⟨hfresh, hsecured, ?_, ?_, fun pn hacked => ?_⟩
    · intro pn hpn
      rw [hcarriers] at hpn
      rw [hsent, hflag, Bool.or_eq_true_iff]
      rcases mem_append.mp hpn with hnew | hold
      · rw [mem_toList] at hnew
        exact .inr (isSome_of_mem hnew)
      · exact .inl (h.flag pn hold)
    · -- a second packet with the frame would find the flag set
      rw [hcarriers]
      cases hdone : (send level).donePn? env r.conn with
      | none => exact h.one
      | some pn =>
        rw [hdone] at hout
        obtain ⟨-, hunset, -⟩ := hout rfl
        have hnone : carriers env r.trace = [] := by
          rw [eq_nil_iff_forall_not_mem]
          intro pn' hpn'
          rw [h.flag pn' hpn'] at hunset
          cases hunset
        rw [hnone]
        simp
    · obtain ⟨hlt, hgone⟩ := h.acked pn ((acknowledged_cons.mp hacked).resolve_left fun hno => hno)
      rw [hsent, find?_buildAndSend h.fresh env level hlt]
      exact ⟨hlt.trans_le ((r.conn.recorded_buildAndSend env level).nextPn_le _), hgone⟩
  · rw [donePn?_of_ne env r.conn hs] at hcarriers
    have hsame : carriers env (r.perform env a).trace = carriers env r.trace := hcarriers
    refine ⟨hfresh, hsecured, ?_, ?_, fun pn hacked => ?_⟩
    · rw [hconn, hsame, r.conn.sentHandshakeDone_act env hs]
      exact h.flag
    · rw [hsame]
      exact h.one
    · rw [hconn, r.conn.nextPn_act env hs]
      rcases acknowledged_cons.mp hacked with hacks | hpast
      · refine ⟨?_, find?_act_of_acks hacks env⟩
        obtain ⟨rec, hrec⟩ : ∃ rec, (r.conn.sent .application).find? pn = some rec := by
          unfold Action.Acks at hacks
          split at hacks
          · exact isSome_iff_exists.mp hacks.2.2
          · exact hacks.elim
        exact h.fresh _ _ _ hrec
      · obtain ⟨hlt, hgone⟩ := h.acked pn hpast
        refine ⟨hlt, ?_⟩
        cases hfind : ((r.conn.act env a).sent .application).find? pn with
        | none => rfl
        | some rec => exact nomatch hgone.symm.trans (r.conn.sentLe_act env hs _ _ _ hfind)

end

theorem doneTracked_create (env : Env) (clientDcid clientScid serverScid : Bytes)
    (tp : TransportParameters) :
    DoneTracked env ⟨.create env clientDcid clientScid serverScid tp, []⟩ where
  fresh _ _ _ hr := nomatch (hr : none = some _)
  secured hset := nomatch (hset : false = true)
  flag _ hpn := absurd hpn not_mem_nil
  one _ hpn := absurd hpn not_mem_nil
  acked _ hacked := by
    obtain ⟨_, hx, -⟩ := hacked
    exact absurd hx not_mem_nil

/-- At every moment of every run HANDSHAKE_DONE is still to be sent, in flight or acknowledged,
exactly if no step declares the packet that carries it lost. -/
theorem secured_iff (env : Env) (clientDcid clientScid serverScid : Bytes)
    (tp : TransportParameters) (events : List Event) :
    AtEach (fun x past => Secured env ⟨x.1.perform env x.2, x :: past⟩)
        (ofEvents env (.create env clientDcid clientScid serverScid tp) events).trace ↔
      AtEach (KeepsDone env)
        (ofEvents env (.create env clientDcid clientScid serverScid tp) events).trace := by
  have hiff (r : Run) (a : Action) (h : DoneTracked env r) :
      Secured env (r.perform env a) ↔ KeepsDone env (r.conn, a) r.trace := by
    cases hf : r.conn.faulted with
    | true =>
      refine iff_of_true (h.perform_of_faulted hf a).secured fun hdef => ?_
      rw [hf] at hdef
      cases hdef
    | false => exact h.secured_perform_iff hf a
  refine atEach_congr (I := DoneTracked env) hiff (fun r a h hkeeps => ?_)
    (doneTracked_create env clientDcid clientScid serverScid tp) events
  cases hf : r.conn.faulted with
  | true => exact h.perform_of_faulted hf a
  | false => exact h.perform hf a ((hiff r a h).mpr hkeeps)

/-- An established handshake and a clock that moves on by ten seconds at each reading. -/
def slowEnv : Env := { Env.plainEstablished {} with clock := fun n => n * 10000000000 }

/-- Two timer ticks: the first sends HANDSHAKE_DONE, the second finds the probe timeout expired. -/
def lossyRun : Run := ofEvents slowEnv (.create slowEnv [] [] [] {})
  [.markPeerAddressValidated, .timer, .timer]

/-- The packet is declared lost, and the frame is not sent again. -/
theorem not_secured_lossyRun :
    ¬ AtEach (fun x past => Secured slowEnv ⟨x.1.perform slowEnv x.2, x :: past⟩)
      lossyRun.trace := by
  have hend : lossyRun.trace.head?.map (fun x =>
      ((x.1.perform slowEnv x.2).sentHandshakeDone,
        ((x.1.perform slowEnv x.2).sent .application).entries.length)) = some (true, 0) := by
    decide +kernel
  have hacks : ∀ x ∈ lossyRun.trace, x.2.ack? = none := by decide +kernel
  intro h
  generalize lossyRun.trace = trace at hend hacks h
  cases trace with
  | nil => cases hend
  | cons x past =>
    obtain ⟨hflag, hempty⟩ := Prod.mk.inj (Option.some.inj hend)
    obtain ⟨pn, -, hflight | ⟨y, hy, hacked⟩⟩ := h x past suffix_rfl hflag
    · obtain ⟨rec, hrec⟩ := isSome_iff_exists.mp hflight
      have hmem := OrdMap.mem_entries.mpr hrec
      rw [length_eq_zero_iff.mp hempty] at hmem
      exact absurd hmem not_mem_nil
    · have hno := hacks y hy
      unfold Action.Acks at hacked
      split at hacked
      next hack => rw [hack] at hno; cases hno
      next => exact hacked

end Run

end Spaznet.Quic
