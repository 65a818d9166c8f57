import Spaznet.Quic.Connection.Flight

/-!
# Settling packets

ACK frames, loss detection and probe timeouts take packets out of flight one by one. What
acknowledging and losing one packet keeps, all of them keep.
-/

namespace Spaznet.Quic

open List

def AckFrame.covers (f : AckFrame) (pn : Nat) : Bool :=
  f.intervals.any fun i => i.1 ≤ pn && pn ≤ i.2

theorem AckFrame.covers_iff {f : AckFrame} :
    f.covers pn = true ↔ ∃ i ∈ f.intervals, i.1 ≤ pn ∧ pn ≤ i.2 := by
  simp [covers]

namespace Connection

/-- The steps of settling keep `I`; packets that are acknowledged have `A`. -/
structure Settles (env : Env) (I : Connection → Prop) (A : Nat × SentRecord → Prop) : Prop where
  ack : ∀ {c level e}, I c → e ∈ (c.sent level).entries → A e → I (ackEntry env level c e)
  lose : ∀ {c level e}, I c → e ∈ (c.sent level).entries → I (loseEntry env level c e)
  /-- The clock, round-trip times and the bookkeeping of the spaces do not matter. -/
  note : ∀ {c} clockReads recovery spaces, I c → I { c with clockReads, recovery, spaces }

variable {env : Env} {I : Connection → Prop} {A : Nat × SentRecord → Prop} {c : Connection}

namespace Settles

section
variable (h : Settles env I A)
include h

theorem loseEntries {es : List (Nat × SentRecord)} (hI : I c)
    (hes : es.Sublist (c.sent level).entries) : I (es.foldl (loseEntry env level) c) :=
  foldl_entries (I := fun (_ : Unit) c => I c) (g := fun u _ => u) (s := ())
    (fun c e => sent_loseEntry c env level e) es (fun _ _ _ _ he hI => h.lose hI he) hes hI

theorem detectAndHandleLoss (hI : I c) (level : EncryptionLevel) :
    I (c.detectAndHandleLoss env level) := by
  unfold Connection.detectAndHandleLoss
  split
  · exact hI
  · exact h.loseEntries (h.note (c.clockReads + 1) c.recovery c.spaces hI)
      (filter_sublist.trans (takeWhile_sublist _))

theorem ackRange (hI : I c) (hA : ∀ e ∈ (c.sent level).entries, i.1 ≤ e.1 ∧ e.1 ≤ i.2 → A e) :
    I (ackRange env level c i) ∧ SentLe (Connection.ackRange env level c i) c := by
  have hsub : ((c.sent level).entries.filter fun e => i.1 ≤ e.1 && e.1 ≤ i.2).Sublist
      (c.sent level).entries := filter_sublist
  refine foldl_entries (I := fun (_ : Unit) c' => I c' ∧ SentLe c' c) (g := fun u _ => u) (s := ())
    (fun c e => sent_ackEntry c env level e) _ (fun _ c' e he hmem hI => ?_) hsub ⟨hI, .refl c⟩
  obtain ⟨hold, hin⟩ := mem_filter.1 he
  exact ⟨h.ack hI.1 hmem (hA e hold (by simpa using hin)),
    (sentLe_erase (sent_ackEntry c' env level e)).trans hI.2⟩

theorem ackRanges (intervals : List (Nat × Nat)) (hI : I c)
    (hA : ∀ e ∈ (c.sent level).entries, (∃ i ∈ intervals, i.1 ≤ e.1 ∧ e.1 ≤ i.2) → A e) :
    I (intervals.foldl (Connection.ackRange env level) c) := by
  induction intervals generalizing c with
  | nil => exact hI
  | cons i intervals ih =>
    obtain ⟨hfirst, hle⟩ := h.ackRange hI fun e he hin => hA e he ⟨i, by simp, hin⟩
    refine ih hfirst fun e he hin => ?_
    obtain ⟨j, hj, hin⟩ := hin
    have hold := OrdMap.mem_entries.2 (hle level e.1 e.2 (OrdMap.mem_entries.1 he))
    exact hA e hold ⟨j, mem_cons_of_mem _ hj, hin⟩

/-- What comes after the acknowledgements: the round-trip time and loss detection. -/
theorem finishAck (c : Connection) (level : EncryptionLevel) (f : AckFrame)
    (hacked : I (f.intervals.foldl (Connection.ackRange env level)
      (c.noteLargestAcked level f.largestAcked))) : I (c.onAckFrame env level f) := by
  unfold Connection.onAckFrame
  dsimp only
  split
  next hmalformed =>
    rw [AckFrame.intervals, if_pos hmalformed] at hacked
    exact hacked
  next =>
    generalize f.intervals.foldl (Connection.ackRange env level) _ = c₁ at hacked
    have hreset := h.note c₁.clockReads c₁.recovery.resetPto c₁.spaces hacked
    refine h.detectAndHandleLoss ?_ level
    split
    · exact (h.note (c₁.clockReads + 1) _ c₁.spaces hreset :)
    · exact hreset

/-- **ACK frames** settle packets that they cover, and lose others. -/
theorem onAckFrame (hI : I c) (level : EncryptionLevel) (f : AckFrame)
    (hA : ∀ e ∈ (c.sent level).entries, f.covers e.1 = true → A e) :
    I (c.onAckFrame env level f) := by
  obtain ⟨spaces, hnote⟩ := c.noteLargestAcked_eq level f.largestAcked
  refine h.finishAck c level f ?_
  rw [hnote]
  refine h.ackRanges f.intervals (h.note c.clockReads c.recovery spaces hI) fun e he hin => ?_
  exact hA e he (AckFrame.covers_iff.2 hin)

theorem firePto (hI : I c) (level : EncryptionLevel) : I (c.firePto env level) := by
  have hlost := h.loseEntries hI
    (filter_sublist (p := (·.2.ackEliciting)) (l := (c.sent level).entries))
  exact h.note _ _ _ hlost

/-- **Probe timeouts** lose packets. -/
theorem checkPto (hI : I c) : I (c.checkPto env) := by
  have hlevels (now : TimePoint) (pto : Duration) (levels : List EncryptionLevel)
      (x : Bool × Connection) (hx : I x.2) :
      I (levels.foldl (checkLevelPto env now pto) x).2 := by
    induction levels generalizing x with
    | nil => exact hx
    | cons level levels ih =>
      refine ih _ ?_
      unfold checkLevelPto
      split
      · exact h.firePto hx level
      · exact hx
  have hticked : I c.ticked := h.note (c.clockReads + 1) c.recovery c.spaces hI
  have hrun := hlevels (c.now env) (c.recovery.ptoTimeout (milliseconds c.peerTp.maxAckDelayMs))
    EncryptionLevel.sending (false, c.ticked) hticked
  unfold Connection.checkPto
  dsimp only
  split
  · exact h.note _ _ _ hrun
  · exact hrun

end

end Settles

/-! ## What stays in flight -/

theorem settles_sentLe (env : Env) (c : Connection) :
    Settles env (fun c' => SentLe c' c) fun _ => True where
  ack {c' level e} h _ _ := (sentLe_erase (sent_ackEntry c' env level e)).trans h
  lose {c' level e} h _ := (sentLe_erase (sent_loseEntry c' env level e)).trans h
  note _ _ _ h := h

end Connection

def Action.ack? : Action → Option (EncryptionLevel × AckFrame)
  | .frame level (.ack f) => some (level, f)
  | _ => none

namespace Connection

variable (c : Connection) (env : Env) {a : Action} (level : EncryptionLevel) (f : AckFrame)
  (pn : Nat)

/-- Records and congestion control change by sending and settling only. -/
theorem sent_congestion_act (hs : ∀ level, a ≠ .send level) (hack : a.ack? = none)
    (hpto : a ≠ .checkPto) :
    (c.act env a).sent = c.sent ∧ (c.act env a).congestion = c.congestion := by
  refine Prod.mk.inj (c.act_frame env (fun c => (c.sent, c.congestion)) fun c => ?_)
  cases a with
  | send level => exact absurd rfl (hs level)
  | checkPto => exact absurd rfl hpto
  | frame level f => cases f <;> first | rfl | cases hack
  | _ => rfl

theorem ack?_eq_some (h : a.ack? = some x) : a = .frame x.1 (.ack x.2) := by
  unfold Action.ack? at h
  split at h
  · cases h
    rfl
  · cases h

theorem sentLe_act (hs : ∀ level, a ≠ .send level) : SentLe (c.act env a) c := by
  cases hack : a.ack? with
  | some x =>
    rw [ack?_eq_some hack]
    exact (settles_sentLe env c).onAckFrame (.refl c) x.1 x.2 fun _ _ _ => trivial
  | none =>
    by_cases hpto : a = .checkPto
    · rw [hpto]
      exact (settles_sentLe env c).checkPto (.refl c)
    · intro level pn r hr
      rwa [(c.sent_congestion_act env hs hack hpto).1] at hr

theorem PnFresh.perform {c : Connection} (h : PnFresh c) (env : Env) (a : Action) :
    PnFresh (c.perform env a) := by
  refine c.perform_rule env a (fun _ => h) fun _ => ?_
  rcases a.send_or_ne with ⟨level, rfl⟩ | hs
  · exact h.buildAndSend env level
  · exact h.of_sentLe (c.sentLe_act env hs) (c.nextPn_act env hs)

/-! ## Which packets are taken out of flight -/

theorem sent_foldl_of_ne {f : Connection → Nat × SentRecord → Connection} {level : EncryptionLevel}
    (hf : ∀ c e, (f c e).sent = Function.update c.sent level ((c.sent level).erase e.1))
    (hl : l ≠ level) (es : List (Nat × SentRecord)) (c : Connection) :
    (es.foldl f c).sent l = c.sent l :=
  Machine.foldl_frame (p := (·.sent l)) (fun c e => by rw [hf, Function.update_of_ne hl]) c es

theorem find?_foldl_ackRange (intervals : List (Nat × Nat)) (c : Connection) (pn : Nat) :
    ((intervals.foldl (ackRange env level) c).sent level).find? pn =
      if ∃ i ∈ intervals, i.1 ≤ pn ∧ pn ≤ i.2 then none else (c.sent level).find? pn := by
  induction intervals generalizing c with
  | nil => simp
  | cons i intervals ih =>
    have hfirst := find?_sent_foldl (fun c e => sent_ackEntry c env level e)
    rw [foldl_cons, ih]
    unfold ackRange
    rw [hfirst]
    cases hfind : (c.sent level).find? pn with
    | none => simp
    | some r =>
      have hmem := OrdMap.mem_entries.2 hfind
      have hiff : pn ∈ ((c.sent level).entries.filter fun e => i.1 ≤ e.1 && e.1 ≤ i.2).map (·.1) ↔
          i.1 ≤ pn ∧ pn ≤ i.2 := by
        simp only [mem_map, mem_filter, Bool.and_eq_true, decide_eq_true_eq]
        exact ⟨fun ⟨e, ⟨_, hin⟩, heq⟩ => heq ▸ hin, fun hin => ⟨(pn, r), ⟨hmem, hin⟩, rfl⟩⟩
      simp only [hiff, exists_mem_cons_iff]
      by_cases hrest : ∃ i ∈ intervals, i.1 ≤ pn ∧ pn ≤ i.2
      · rw [if_pos hrest, if_pos (.inr hrest)]
      rw [if_neg hrest]
      by_cases hi : i.1 ≤ pn ∧ pn ≤ i.2
      · rw [if_pos hi, if_pos (.inl hi)]
      · rw [if_neg hi, if_neg fun h => h.elim hi hrest]

/-- The packet or the time threshold declares the packet lost. -/
def overdue (c : Connection) (env : Env) (level : EncryptionLevel) (pn : Nat) : Bool :=
  (c.spaces level).anyAcked &&
    (c.lostEntries level (c.now env - c.recovery.lossTimeThreshold)).any (·.1 == pn)

theorem find?_detectAndHandleLoss : ((c.detectAndHandleLoss env level).sent level).find? pn =
      if c.overdue env level pn then none else (c.sent level).find? pn := by
  unfold detectAndHandleLoss overdue
  cases hany : (c.spaces level).anyAcked with
  | false => rfl
  | true =>
    cases hempty : (c.sent level).entries.isEmpty with
    | true =>
      have hnil := List.isEmpty_iff.mp hempty
      simp [lostEntries, hnil]
    | false =>
      rw [Bool.not_true, Bool.or_self, if_neg Bool.false_ne_true,
        find?_sent_foldl (fun c e => sent_loseEntry c env level e)]
      simp only [mem_map, Bool.true_and, any_eq_true, beq_iff_eq]
      rfl

/-- The state in which `on_ack_frame` looks for losses. -/
def afterAcks (c : Connection) (env : Env) (level : EncryptionLevel) (f : AckFrame) :
    Connection :=
  let acked := f.intervals.foldl (ackRange env level) (c.noteLargestAcked level f.largestAcked)
  let acked := { acked with recovery := acked.recovery.resetPto }
  match c.rttSampleTime level f with
  | some t => acked.sampleRtt env t f.ackDelay
  | none => acked

theorem sent_afterAcks :
    (c.afterAcks env level f).sent = (f.intervals.foldl (ackRange env level)
      (c.noteLargestAcked level f.largestAcked)).sent := by
  unfold afterAcks
  split <;> rfl

/-- An ACK frame takes out what it covers and what is overdue then. -/
theorem find?_onAckFrame : ((c.onAckFrame env level f).sent level).find? pn =
      if f.covers pn = true ∨ f.firstRange ≤ f.largestAcked ∧
          (c.afterAcks env level f).overdue env level pn = true then none
      else (c.sent level).find? pn := by
  have hnote : (c.noteLargestAcked level f.largestAcked).sent = c.sent := by
    obtain ⟨spaces, hnote⟩ := c.noteLargestAcked_eq level f.largestAcked
    rw [hnote]
  by_cases hfits : f.firstRange ≤ f.largestAcked
  · have hloss : c.onAckFrame env level f =
        (c.afterAcks env level f).detectAndHandleLoss env level :=
      if_neg (Nat.not_lt.2 hfits)
    rw [hloss, find?_detectAndHandleLoss, sent_afterAcks, find?_foldl_ackRange, hnote]
    simp only [AckFrame.covers_iff, hfits, true_and]
    by_cases hcovers : ∃ i ∈ f.intervals, i.1 ≤ pn ∧ pn ≤ i.2
    · rw [if_pos hcovers, ite_self, if_pos (Or.inl hcovers)]
    · simp only [hcovers, if_false, false_or]
  · have hnone : c.onAckFrame env level f = c.noteLargestAcked level f.largestAcked :=
      if_pos (Nat.lt_of_not_le hfits)
    have hcovers : f.covers pn = false := by
      rw [AckFrame.covers, AckFrame.intervals, if_pos (Nat.lt_of_not_le hfits)]
      rfl
    rw [hnone, hnote, hcovers, if_neg fun h => h.elim Bool.false_ne_true fun h => hfits h.1]

theorem sent_onAckFrame_of_ne (hl : l ≠ level) : (c.onAckFrame env level f).sent l = c.sent l := by
  obtain ⟨spaces, hnote⟩ := c.noteLargestAcked_eq level f.largestAcked
  have hranges (d : Connection) (intervals : List (Nat × Nat)) :
      (intervals.foldl (ackRange env level) d).sent l = d.sent l := by
    induction intervals generalizing d with
    | nil => rfl
    | cons i intervals ih =>
      exact (ih _).trans (sent_foldl_of_ne (fun c e => sent_ackEntry c env level e) hl _ d)
  have hdetect (d : Connection) : (d.detectAndHandleLoss env level).sent l = d.sent l := by
    unfold detectAndHandleLoss
    split
    · rfl
    · exact sent_foldl_of_ne (fun c e => sent_loseEntry c env level e) hl _ d.ticked
  by_cases hfits : f.firstRange ≤ f.largestAcked
  · have hloss : c.onAckFrame env level f =
        (c.afterAcks env level f).detectAndHandleLoss env level :=
      if_neg (Nat.not_lt.2 hfits)
    rw [hloss, hdetect, sent_afterAcks, hranges, hnote]
  · have hnone : c.onAckFrame env level f = c.noteLargestAcked level f.largestAcked :=
      if_pos (Nat.lt_of_not_le hfits)
    rw [hnone, hnote]

/-- The probe timeout of a level has expired in a call of `check_pto`. -/
def ptoDue (c : Connection) (env : Env) (level : EncryptionLevel) : Bool :=
  c.ptoExpired (c.now env) (c.recovery.ptoTimeout (milliseconds c.peerTp.maxAckDelayMs)) level

theorem firePto_of_ne (hl : l ≠ level) :
    (c.firePto env level).sent l = c.sent l ∧ (c.firePto env level).spaces l = c.spaces l := by
  let d := ((c.sent level).entries.filter (·.2.ackEliciting)).foldl (loseEntry env level) c
  have hspaces : d.spaces = c.spaces :=
    (congrArg (·.spaces) (Machine.foldl_frame (fun c e => forgetLoss_loseEntry c env level e) c _) :)
  have hsent : d.sent l = c.sent l :=
    sent_foldl_of_ne (fun c e => sent_loseEntry c env level e) hl _ c
  exact ⟨hsent, (spaces_setSpace_of_ne d hl _).trans (congrFun hspaces l)⟩

theorem find?_firePto :
    ((c.firePto env level).sent level).find? pn =
      ((c.sent level).find? pn).filter fun r => !r.ackEliciting := by
  have hfold := find?_sent_foldl (fun c e => sent_loseEntry c env level e)
    ((c.sent level).entries.filter (·.2.ackEliciting)) c pn
  refine Eq.trans hfold ?_
  cases hfind : (c.sent level).find? pn with
  | none => simp
  | some r =>
    have hmem := OrdMap.mem_entries.2 hfind
    have hiff : pn ∈ ((c.sent level).entries.filter (·.2.ackEliciting)).map (·.1) ↔
        r.ackEliciting = true := by
      rw [mem_map]
      constructor
      · rintro ⟨e, he, rfl⟩
        obtain ⟨he, hack⟩ := mem_filter.1 he
        have := OrdMap.mem_entries.1 he
        rw [hfind] at this
        rwa [Option.some.inj this]
      · exact fun hack => ⟨(pn, r), mem_filter.2 ⟨hmem, hack⟩, rfl⟩
    cases hack : r.ackEliciting with
    | false => rw [if_neg (by simp [hiff, hack]), Option.filter_some_pos (by simp [hack])]
    | true => rw [if_pos (hiff.mpr hack), Option.filter_some_neg (by simp [hack])]

/-- A probe timeout takes out the ack-eliciting packets of its level. -/
theorem find?_checkPto :
    ((c.checkPto env).sent .application).find? pn =
      if c.ptoDue env .application = true then
        ((c.sent .application).find? pn).filter fun r => !r.ackEliciting
      else (c.sent .application).find? pn := by
  let now := c.now env
  let pto := c.recovery.ptoTimeout (milliseconds c.peerTp.maxAckDelayMs)
  have hround (x : Bool × Connection) (level : EncryptionLevel) (hl : .application ≠ level) :
      (checkLevelPto env now pto x level).2.sent .application = x.2.sent .application ∧
        (checkLevelPto env now pto x level).2.spaces .application = x.2.spaces .application := by
    unfold checkLevelPto
    split
    · exact x.2.firePto_of_ne env level hl
    · exact ⟨rfl, rfl⟩
  let x := checkLevelPto env now pto (checkLevelPto env now pto (false, c.ticked) .initial)
    .handshake
  have hsent : x.2.sent .application = c.sent .application :=
    (hround _ .handshake nofun).1.trans (hround _ .initial nofun).1
  have hspaces : x.2.spaces .application = c.spaces .application :=
    (hround _ .handshake nofun).2.trans (hround _ .initial nofun).2
  have hdue : x.2.ptoExpired now pto .application = c.ptoDue env .application := by
    unfold ptoDue ptoExpired
    rw [hsent, hspaces]
  have hlast : (c.checkPto env).sent = (checkLevelPto env now pto x .application).2.sent := by
    show (if (checkLevelPto env now pto x .application).1 = true then _ else _ : Connection).sent = _
    split <;> rfl
  rw [hlast]
  unfold checkLevelPto
  rw [hdue]
  split
  · rw [find?_firePto, hsent]
  · rw [hsent]

end Connection

end Spaznet.Quic
