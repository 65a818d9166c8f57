import Spaznet.Quic.Connection.Wire

/-!
# What the actions do to the spaces

A space holds keys, the next packet number, and bookkeeping of what was received, acknowledged and
queued. `SpaceStep` says which members each action can change and how; what a member keeps follows by
a case split.
-/

namespace Spaznet.Quic

open Function

/-- Blank out the bookkeeping: keys and the next packet number remain. -/
def Space.core (sp : Space) : Space :=
  { sp with
    largestRecvPn := 0, anyRecv := false, acks := {}, cryptoRecv := ∅, cryptoReadOffset := 0
    cryptoSendOffset := 0, lastAckElicitingSendTime := 0, anyAckElicitingSent := false
    largestAckedPn := 0, anyAcked := false }

def Action.rekeys : Action → Bool
  | .shortPacket _ | .installKeys | .keyUpdate => true
  | _ => false

inductive SpaceStep (y : Crypto) (sp : Space) : Action → Space → Prop where
  | same (a : Action) : SpaceStep y sp a sp
  | longOpened : SpaceStep y sp (.longPacket dg off) (sp.noteOpened pn)
  | shortOpened (update : Bool) : SpaceStep y sp (.shortPacket dg)
      ((if update then sp.commitRecv y else sp).noteOpened pn)
  | crypto : SpaceStep y sp (.frame l (.crypto f))
      { sp with cryptoRecv := chunks, cryptoReadOffset := offset }
  | acked : SpaceStep y sp (.frame l (.ack f))
      { sp with largestAckedPn := f.largestAcked, anyAcked := true }
  | received : SpaceStep y sp (.received l pn) { sp with acks := sp.acks.onReceived pn true }
  | installed (level : EncryptionLevel) (aead : Aead) (rs ws : Bytes) : SpaceStep y sp .installKeys
      (((sp.installRecv y level aead rs).installSend y level aead ws).prepareNext y level)
  | pulled : SpaceStep y sp .pullCrypto { sp with cryptoSendOffset := offset }
  | sent : SpaceStep y sp (.send l)
      { sp with
        acks := { sp.acks with needsAck := needsAck }, nextSendPn := pn
        lastAckElicitingSendTime := time, anyAckElicitingSent := eliciting }
  | probed : SpaceStep y sp .checkPto { sp with anyAckElicitingSent := eliciting }
  | rotated : SpaceStep y sp .keyUpdate (sp.rotateSend y)

/-- The passes over several levels, and sending, take more than one step. -/
theorem SpaceStep.trans (h : SpaceStep y sp a sp')
    (h' : SpaceStep y sp' a sp'') (ha : a = .send l ∨ a = .pullCrypto ∨ a = .checkPto) :
    SpaceStep y sp a sp'' := by
  rcases ha with rfl | rfl | rfl
  · cases h with
    | same => exact h'
    | sent => cases h' <;> exact .sent
  · cases h with
    | same => exact h'
    | pulled => cases h' <;> exact .pulled
  · cases h with
    | same => exact h'
    | probed => cases h' <;> exact .probed

namespace Connection

variable {c c' : Connection} {level : EncryptionLevel} {sp : Space}

def cores (c : Connection) (level : EncryptionLevel) : Space := (c.spaces level).core

def nextPn (c : Connection) (level : EncryptionLevel) : Nat := (c.spaces level).nextSendPn

theorem spaces_update (p : Space → α) (h : c'.spaces = update c.spaces level sp)
    (hsp : p sp = p (c.spaces level)) : (fun l => p (c'.spaces l)) = fun l => p (c.spaces l) := by
  funext l
  rw [h]
  by_cases hl : l = level
  · rw [hl, update_self, hsp]
  · rw [update_of_ne hl]

theorem nextPn_of_cores (h : c'.cores = c.cores) : c'.nextPn = c.nextPn :=
  funext fun l => (congrArg Space.nextSendPn (congrFun h l) :)

theorem noteLargestAcked_eq (c : Connection) (level : EncryptionLevel) (pn : Nat) :
    ∃ spaces, c.noteLargestAcked level pn = { c with spaces } := by
  unfold noteLargestAcked
  dsimp only
  split
  · exact ⟨_, rfl⟩
  · exact ⟨c.spaces, rfl⟩

/-! ## Steps -/

section
variable {y : Crypto}
variable (c : Connection) (env : Env) (level l : EncryptionLevel)

theorem spaceStep_update {c c' : Connection} {level : EncryptionLevel}
    (h : c'.spaces = update c.spaces level sp) (hsp : SpaceStep y (c.spaces level) a sp)
    (l : EncryptionLevel) : SpaceStep y (c.spaces l) a (c'.spaces l) := by
  rw [h]
  by_cases hl : l = level
  · rw [hl, update_self]
    exact hsp
  · rw [update_of_ne hl]
    exact .same a

theorem spaceStep_of_spaces {c c' : Connection} (h : c'.spaces = c.spaces) (a : Action)
    (l : EncryptionLevel) : SpaceStep y (c.spaces l) a (c'.spaces l) := by
  rw [h]
  exact .same a

theorem spaceStep_onFrame (f : Frame) (l : EncryptionLevel) :
    SpaceStep y (c.spaces l) (.frame level f) ((c.onFrame env level f).spaces l) := by
  have hsame (h : ∀ c, (f.forget c).spaces = c.spaces) :
      SpaceStep y (c.spaces l) (.frame level f) ((c.onFrame env level f).spaces l) :=
    spaceStep_of_spaces (c.act_frame env (·.spaces) (a := .frame level f) h) _ l
  cases f with
  | crypto f =>
    simp only [onFrame, onCryptoFrame]
    split
    · exact .same _
    unfold feedTlsCrypto
    rw [spaces_setSpace_self]
    exact spaceStep_update (update_idem ..) .crypto l
  | ack f =>
    have hspaces : (c.onFrame env level (.ack f)).spaces =
        (c.noteLargestAcked level f.largestAcked).spaces :=
      congrArg (fun c => c.spaces) (c.forgetLoss_onAckFrame env level f)
    rw [hspaces]
    unfold noteLargestAcked
    dsimp only
    split
    · exact spaceStep_update rfl .acked l
    · exact .same _
  | _ => exact hsame fun _ => rfl

theorem spaceStep_checkPto : SpaceStep y (c.spaces l) .checkPto ((c.checkPto env).spaces l) := by
  have hfire (c : Connection) (level : EncryptionLevel) :
      SpaceStep y (c.spaces l) .checkPto ((c.firePto env level).spaces l) := by
    have hfold := Machine.foldl_frame (fun c e => forgetLoss_loseEntry c env level e) c
      ((c.sent level).entries.filter (·.2.ackEliciting))
    have hspaces : (((c.sent level).entries.filter (·.2.ackEliciting)).foldl (loseEntry env level)
        c).spaces = c.spaces := congrArg (fun c => c.spaces) hfold
    rw [← hspaces]
    exact spaceStep_update rfl .probed l
  have hlevels (now : TimePoint) (pto : Duration) (levels : List EncryptionLevel)
      (x : Bool × Connection) : SpaceStep y (x.2.spaces l) .checkPto
        ((levels.foldl (checkLevelPto env now pto) x).2.spaces l) := by
    induction levels generalizing x with
    | nil => exact .same _
    | cons level levels ih =>
      refine SpaceStep.trans ?_ (ih _) (.inr (.inr rfl)) (l := level)
      unfold checkLevelPto
      split
      · exact hfire x.2 level
      · exact .same _
  unfold checkPto
  dsimp only
  split <;> exact hlevels _ _ _ (false, c.ticked)

theorem spaceStep_pullCrypto :
    SpaceStep y (c.spaces l) .pullCrypto (c.pullCryptoFromTls.spaces l) := by
  have hlevel (c : Connection) (level : EncryptionLevel) :
      SpaceStep y (c.spaces l) .pullCrypto ((c.pullLevelCrypto level).spaces l) := by
    unfold pullLevelCrypto
    dsimp only
    split
    · exact .same _
    · exact spaceStep_update rfl .pulled l
  unfold pullCryptoFromTls
  induction EncryptionLevel.sending generalizing c with
  | nil => exact .same _
  | cons level levels ih => exact (hlevel c level).trans (ih _) (.inr (.inl rfl)) (l := level)

theorem spaceStep_takePn : SpaceStep y (c.spaces l) (.send level) ((c.takePn level).spaces l) :=
  spaceStep_update rfl .sent l

theorem spaceStep_collect :
    SpaceStep y (c.spaces l) (.send level) ((c.collect level).2.spaces l) := by
  obtain ⟨_, _, _, _, _, _, _, _, _, _, h⟩ := c.collect_eq level
  exact spaceStep_update (congrArg (·.spaces) h) .sent l

theorem spaceStep_buildAndSend :
    SpaceStep y (c.spaces l) (.send level) ((c.buildAndSend env level).conn.spaces l) := by
  have hcollect := c.spaceStep_collect level l (y := y)
  have hnumbered := hcollect.trans ((c.collect level).2.spaceStep_takePn level l) (.inl rfl)
  refine c.sends_rule env level fun res hsends => ?_
  cases hsends with
  | idle => exact .same _
  | closeLost | close => exact c.spaceStep_takePn level l
  | drained => exact hcollect
  | lost => exact hnumbered
  | sent =>
    refine hnumbered.trans ?_ (.inl rfl)
    refine spaceStep_update (c := (c.collect level).2.takePn level) rfl ?_ l
    split
    · exact .sent
    · exact .same _

end

/-- **Space steps.** What every action does to every space. -/
theorem spaceStep_act (c : Connection) (env : Env) (a : Action) (l : EncryptionLevel) :
    SpaceStep env.toCrypto (c.spaces l) a ((c.act env a).spaces l) := by
  cases a with
  | longPacket =>
    simp only [act]
    split
    · exact .same _
    · exact .same _
    · exact spaceStep_update rfl .longOpened l
    · exact .same _
  | shortPacket =>
    simp only [act]
    split
    · exact .same _
    · exact spaceStep_update rfl (.shortOpened _) l
  | frame level f => exact c.spaceStep_onFrame env level f l
  | received => exact spaceStep_update rfl .received l
  | installKeys =>
    cases l with
    | initial | earlyData => exact .same _
    | handshake => exact .installed .handshake _ _ _
    | application => exact .installed .application _ _ _
  | pullCrypto => exact c.spaceStep_pullCrypto l
  | send level => exact c.spaceStep_buildAndSend env level l
  | checkPto => exact c.spaceStep_checkPto env l
  | writeStream | readStream | checkIdle =>
    exact spaceStep_of_spaces (c.act_frame env (·.spaces) fun _ => rfl) _ l
  | keyUpdate =>
    simp only [act, initiateKeyUpdate]
    split
    · exact .same _
    · exact spaceStep_update rfl .rotated l
  | _ => exact .same _

/-! ## Packet numbers -/

theorem nextPn_act (c : Connection) (env : Env) (h : ∀ level, a ≠ .send level) :
    (c.act env a).nextPn = c.nextPn := by
  funext l
  have hstep := c.spaceStep_act env a l
  show ((c.act env a).spaces l).nextSendPn = (c.spaces l).nextSendPn
  generalize (c.act env a).spaces l = sp at hstep
  cases hstep with
  | sent => exact absurd rfl (h _)
  | shortOpened update =>
    unfold Space.noteOpened Space.commitRecv
    dsimp only
    repeat' split
    all_goals rfl
  | installed =>
    unfold Space.prepareNext Space.installSend Space.installRecv
    repeat' split
    all_goals rfl
  | _ => rfl

theorem nextPn_takePn (c : Connection) (level : EncryptionLevel) :
    (c.takePn level).nextPn = update c.nextPn level (c.nextPn level + 1) := by
  funext l
  show (update c.spaces level _ l).nextSendPn = _
  by_cases hl : l = level
  · rw [hl, update_self, update_self]
    rfl
  · rw [update_of_ne hl, update_of_ne hl]
    rfl

end Connection

end Spaznet.Quic
