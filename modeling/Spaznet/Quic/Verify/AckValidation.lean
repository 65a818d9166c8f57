import Spaznet.Quic.Connection.Settle
import Spaznet.Quic.Verify.Nonces

/-!
# Validation of ACK frames

A peer may acknowledge numbers that were never used, and its ranges may run below zero. The code
notes the largest acknowledged number before it looks at the ranges, never compares it with the next
number to be sent, and stops at a malformed range with the ranges before it applied. The frames it
gets away with are characterised exactly. Whatever it is told, it settles no packet twice.
-/

namespace Spaznet.Quic

open List Env

namespace AckFrame

def wellFormedBelow (lo : Nat) : List AckRange → Bool
  | [] => true
  | r :: rest => decide (r.gap + 2 ≤ lo) && decide (r.length ≤ lo - r.gap - 2) &&
      wellFormedBelow (lo - r.gap - 2 - r.length) rest

def wellFormed (f : AckFrame) : Bool :=
  decide (f.firstRange ≤ f.largestAcked) && wellFormedBelow (f.largestAcked - f.firstRange) f.ranges

end AckFrame

namespace Connection

variable {c : Connection} {level : EncryptionLevel}

/-! ## Who writes the largest acknowledged number -/

def acked (c : Connection) (level : EncryptionLevel) : Bool × Nat :=
  ((c.spaces level).anyAcked, (c.spaces level).largestAckedPn)

theorem acked_act (c : Connection) (env : Env) (h : ∀ level f, a ≠ .frame level (.ack f)) :
    (c.act env a).acked = c.acked := by
  funext l
  have hstep := c.spaceStep_act env a l
  unfold acked
  generalize (c.act env a).spaces l = sp at hstep
  cases hstep with
  | acked => exact absurd rfl (h _ _)
  | shortOpened update =>
    unfold Space.noteOpened Space.commitRecv
    dsimp only
    repeat' split
    all_goals rfl
  | installed =>
    unfold Space.prepareNext Space.installSend Space.installRecv
    repeat' split
    all_goals rfl
  | _ => rfl

/-- What was acknowledged at each level was sent there. -/
def AcksValid (c : Connection) : Prop := ∀ level, (c.spaces level).anyAcked = true →
  (c.spaces level).largestAckedPn < (c.spaces level).nextSendPn

/-- Records, loss decisions and what they rest on, round-trip times, the backoff of the probe timeout
and congestion control are those of the state before. -/
structure Untouched (c c' : Connection) : Prop where
  spaces : c'.spaces = c.spaces
  sent : c'.sent = c.sent
  streams : c'.streams = c.streams
  cryptoPending : c'.cryptoPending = c.cryptoPending
  recovery : c'.recovery = c.recovery
  congestion : c'.congestion = c.congestion

/-- A frame that tells the connection nothing: no number above the largest acknowledged one, no
packet in flight is covered or overdue, and no probe timeout has been fired since the last reset. -/
def Harmless (env : Env) (c : Connection) (level : EncryptionLevel) (f : AckFrame) : Prop :=
  ((c.spaces level).anyAcked = true ∧ f.largestAcked ≤ (c.spaces level).largestAckedPn) ∧
    (f.firstRange ≤ f.largestAcked → c.recovery.ptoCount = 0 ∧
      (∀ e ∈ (c.sent level).entries, f.covers e.1 = false) ∧
        c.lostEntries level (c.now env - c.recovery.lossTimeThreshold) = [])

/-! ## The noted number -/

theorem noteLargestAcked_of_le
    (h : (c.spaces level).anyAcked = true ∧ pn ≤ (c.spaces level).largestAckedPn) :
    c.noteLargestAcked level pn = c := by
  unfold noteLargestAcked
  dsimp only
  rw [h.1, if_neg (by simpa using h.2)]

theorem le_of_spaces_noteLargestAcked (h : (c.noteLargestAcked level pn).spaces = c.spaces) :
    (c.spaces level).anyAcked = true ∧ pn ≤ (c.spaces level).largestAckedPn := by
  unfold noteLargestAcked at h
  dsimp only at h
  split at h
  next hnoted =>
    have hlevel := congrFun h level
    rw [spaces_setSpace_self] at hlevel
    have hany : true = (c.spaces level).anyAcked := congrArg Space.anyAcked hlevel
    have hpn : pn = (c.spaces level).largestAckedPn := congrArg Space.largestAckedPn hlevel
    exact ⟨hany.symm, hpn.le⟩
  next hkept => simpa using hkept

theorem spaces_onAckFrame (c : Connection) (env : Env) (level : EncryptionLevel) (f : AckFrame) :
    (c.onAckFrame env level f).spaces = (c.noteLargestAcked level f.largestAcked).spaces :=
  congrArg (fun c => c.spaces) (c.forgetLoss_onAckFrame env level f)

/-- The acknowledged numbers stay among the sent ones exactly if the frame's largest one was
sent. -/
theorem acksValid_onAckFrame (h : AcksValid c) (env : Env) (level : EncryptionLevel) (f : AckFrame) :
    AcksValid (c.onAckFrame env level f) ↔ f.largestAcked < c.nextPn level := by
  unfold AcksValid
  rw [spaces_onAckFrame]
  unfold noteLargestAcked
  dsimp only
  split
  next hnoted =>
    refine ⟨fun hvalid => ?_, fun hlt l => ?_⟩
    · have hlevel := hvalid level
      rw [spaces_setSpace_self] at hlevel
      exact hlevel rfl
    · by_cases hl : l = level
      · subst hl
        rw [spaces_setSpace_self]
        exact fun _ => hlt
      · rw [spaces_setSpace_of_ne c hl]
        exact h l
  next hkept =>
    have hle : (c.spaces level).anyAcked = true ∧
        f.largestAcked ≤ (c.spaces level).largestAckedPn := by simpa using hkept
    exact ⟨fun _ => hle.2.trans_lt (h level hle.1), fun _ => h⟩

/-! ## Packets in flight -/

theorem ackRange_of_uncovered
    (h : ∀ e ∈ (c.sent level).entries, ¬ (i.1 ≤ e.1 ∧ e.1 ≤ i.2)) (env : Env) :
    ackRange env level c i = c := by
  have hnone : ((c.sent level).entries.filter fun e => i.1 ≤ e.1 && e.1 ≤ i.2) = [] := by
    rw [filter_eq_nil_iff]
    intro e he hin
    exact h e he (by simpa using hin)
  unfold ackRange
  rw [hnone]
  rfl

theorem foldl_ackRange_of_uncovered (intervals : List (Nat × Nat))
    (h : ∀ e ∈ (c.sent level).entries, ∀ i ∈ intervals, ¬ (i.1 ≤ e.1 ∧ e.1 ≤ i.2)) (env : Env) :
    intervals.foldl (ackRange env level) c = c := by
  induction intervals with
  | nil => rfl
  | cons i intervals ih =>
    rw [foldl_cons, ackRange_of_uncovered (fun e he => h e he i (by simp))]
    exact ih fun e he j hj => h e he j (by simp [hj])

theorem sentLe_detectAndHandleLoss (c : Connection) (env : Env) (level : EncryptionLevel)
    (h : ((c.detectAndHandleLoss env level).sent level).find? pn = some r) :
    (c.sent level).find? pn = some r := by
  unfold detectAndHandleLoss at h
  split at h
  · exact h
  rw [find?_sent_foldl (fun c e => sent_loseEntry c env level e)] at h
  split at h
  · cases h
  · exact h

theorem lostEntries_of_sent_detect (hany : (c.spaces level).anyAcked = true)
    (h : (c.detectAndHandleLoss env level).sent = c.sent) :
    c.lostEntries level (c.now env - c.recovery.lossTimeThreshold) = [] := by
  rw [eq_nil_iff_forall_not_mem]
  intro e he
  have hmem : e ∈ (c.sent level).entries :=
    (takeWhile_sublist _).mem (mem_of_mem_filter he)
  have hfind : (c.sent level).find? e.1 = some e.2 := OrdMap.mem_entries.1 hmem
  rw [← h] at hfind
  unfold detectAndHandleLoss at hfind
  have hne : (c.sent level).entries.isEmpty = false := by
    rw [isEmpty_eq_false_iff]
    exact ne_nil_of_mem hmem
  rw [hany, hne, Bool.not_true, Bool.or_self, if_neg Bool.false_ne_true,
    find?_sent_foldl (fun c e => sent_loseEntry c env level e),
    if_pos (mem_map_of_mem he)] at hfind
  cases hfind

theorem detectAndHandleLoss_of_lostEntries (env : Env)
    (h : c.lostEntries level (c.now env - c.recovery.lossTimeThreshold) = []) :
    c.detectAndHandleLoss env level = c ∨ c.detectAndHandleLoss env level = c.ticked := by
  unfold detectAndHandleLoss
  split
  · exact .inl rfl
  dsimp only
  rw [h]
  exact .inr rfl

/-! ## Frames that change nothing -/

/-- A frame that fits, and covers nothing in flight, comes down to loss detection. -/
theorem onAckFrame_of_uncovered (hfits : f.firstRange ≤ f.largestAcked)
    (h : ∀ e ∈ (c.sent level).entries, f.covers e.1 = false) (env : Env) :
    c.onAckFrame env level f = { c.noteLargestAcked level f.largestAcked with
      recovery := c.recovery.resetPto }.detectAndHandleLoss env level := by
  obtain ⟨spaces, hnote⟩ := c.noteLargestAcked_eq level f.largestAcked
  have hlargest : f.covers f.largestAcked = true := by
    rw [AckFrame.covers_iff, AckFrame.intervals, if_neg (Nat.not_lt.2 hfits)]
    exact ⟨_, mem_cons_self, Nat.sub_le .., Nat.le_refl _⟩
  have hnone : (c.sent level).find? f.largestAcked = none := by
    rw [OrdMap.find?_eq_none]
    intro r hr
    rw [h _ hr] at hlargest
    cases hlargest
  have hfold := foldl_ackRange_of_uncovered (c := c.noteLargestAcked level f.largestAcked)
    f.intervals (fun e he i hi hin => by
      have hcovers : f.covers e.1 = true := AckFrame.covers_iff.2 ⟨i, hi, hin⟩
      rw [hnote] at he
      rw [h e he] at hcovers
      cases hcovers) env
  unfold onAckFrame rttSampleTime
  rw [hnone]
  dsimp only [Option.bind_none]
  rw [if_neg (Nat.not_lt.2 hfits), hfold, hnote]

theorem untouched_iff_harmless (env : Env) (c : Connection) (level : EncryptionLevel)
    (f : AckFrame) : Untouched c (c.onAckFrame env level f) ↔ Harmless env c level f := by
  constructor
  · intro H
    have hle := le_of_spaces_noteLargestAcked ((c.spaces_onAckFrame env level f).symm.trans H.spaces)
    refine ⟨hle, fun hfits => ?_⟩
    have huncovered (e : Nat × SentRecord) (he : e ∈ (c.sent level).entries) :
        f.covers e.1 = false := by
      by_contra hcovers
      have hin := AckFrame.covers_iff.1 (Bool.not_eq_false _ ▸ hcovers)
      have hfind : (c.sent level).find? e.1 = some e.2 := OrdMap.mem_entries.1 he
      rw [← H.sent] at hfind
      unfold onAckFrame at hfind
      rw [if_neg (Nat.not_lt.2 hfits)] at hfind
      have hacked := sentLe_detectAndHandleLoss _ env level hfind
      have hgone := find?_foldl_ackRange env level f.intervals
        (c.noteLargestAcked level f.largestAcked) e.1
      rw [if_pos hin] at hgone
      split at hacked
      all_goals exact nomatch hgone.symm.trans hacked
    have hsent := H.sent
    have hrecovery := H.recovery
    rw [onAckFrame_of_uncovered hfits huncovered, noteLargestAcked_of_le hle] at hsent hrecovery
    have hlost := lostEntries_of_sent_detect (c := { c with recovery := c.recovery.resetPto })
      hle.1 hsent
    have hpto : 0 = c.recovery.ptoCount := by
      rcases detectAndHandleLoss_of_lostEntries env hlost with h | h
      all_goals exact congrArg Recovery.ptoCount (h ▸ hrecovery)
    exact ⟨hpto.symm, huncovered, hlost⟩
  · rintro ⟨hle, hrest⟩
    by_cases hfits : f.firstRange ≤ f.largestAcked
    · obtain ⟨hpto, huncovered, hlost⟩ := hrest hfits
      have hreset : c.recovery.resetPto = c.recovery := by rw [Recovery.resetPto, ← hpto]
      rw [onAckFrame_of_uncovered hfits huncovered, noteLargestAcked_of_le hle, hreset]
      rcases detectAndHandleLoss_of_lostEntries env hlost with h | h
      all_goals
        rw [h]
        exact ⟨rfl, rfl, rfl, rfl, rfl, rfl⟩
    · unfold onAckFrame
      rw [if_pos (Nat.lt_of_not_le hfits), noteLargestAcked_of_le hle]
      exact ⟨rfl, rfl, rfl, rfl, rfl, rfl⟩

end Connection

namespace Run

/-- A frame that is malformed or acknowledges a number never used. -/
def BadAck (c : Connection) (level : EncryptionLevel) (f : AckFrame) : Prop :=
  f.wellFormed = false ∨ c.nextPn level ≤ f.largestAcked

/-- After a step, acknowledged numbers are below the next one to be sent, and a bad ACK frame has
changed nothing. -/
def AcksChecked (env : Env) (c : Connection) (a : Action) : Prop :=
  (c.perform env a).AcksValid ∧ ∀ level f, a = .frame level (.ack f) → BadAck c level f →
    c.Untouched (c.perform env a)

/-- An ACK frame acknowledges numbers that were used, and if one of its ranges runs below zero it
tells the connection nothing. -/
def FairAck (env : Env) (c : Connection) (a : Action) : Prop :=
  ∀ level f, a = .frame level (.ack f) → c.faulted = false →
    f.largestAcked < c.nextPn level ∧ (f.wellFormed = false → c.Harmless env level f)

theorem acksChecked_iff_fairAck (h : c.AcksValid) (env : Env) (a : Action) :
    AcksChecked env c a ↔ FairAck env c a := by
  cases hf : c.faulted with
  | true =>
    unfold AcksChecked FairAck
    rw [Connection.perform_of_faulted env hf]
    exact ⟨fun _ level f _ hf' => (nomatch hf.symm.trans hf'),
      fun _ => ⟨h, fun _ _ _ _ => ⟨rfl, rfl, rfl, rfl, rfl, rfl⟩⟩⟩
  | false =>
    unfold AcksChecked FairAck
    rw [Connection.perform_of_not_faulted env hf]
    by_cases hack : ∃ level f, a = .frame level (.ack f)
    · obtain ⟨level, f, rfl⟩ := hack
      have hvalid := Connection.acksValid_onAckFrame h env level f
      have hharmless := c.untouched_iff_harmless env level f
      constructor
      · rintro ⟨hacks, hbad⟩ level' f' heq -
        cases heq
        exact ⟨hvalid.1 hacks, fun hmal => hharmless.1 (hbad level f rfl (.inl hmal))⟩
      · intro hfair
        obtain ⟨hlt, hmal⟩ := hfair level f rfl hf
        refine ⟨hvalid.2 hlt, ?_⟩
        rintro level' f' heq (hbad | hunsent)
        · cases heq
          exact hharmless.2 (hmal hbad)
        · cases heq
          exact absurd hlt (Nat.not_lt.2 hunsent)
    · have hne : ∀ level f, a ≠ .frame level (.ack f) := fun level f heq => hack ⟨level, f, heq⟩
      refine ⟨fun _ level f heq => absurd heq (hne level f), fun _ => ⟨fun level hany => ?_,
        fun level f heq => absurd heq (hne level f)⟩⟩
      have hacked := congrFun (c.acked_act env hne) level
      obtain ⟨hany', hlargest⟩ := Prod.mk.inj hacked
      have hlt := h level (hany'.symm.trans hany)
      rw [hlargest]
      have hmono := c.nextPn_le_perform env a level
      rw [Connection.perform_of_not_faulted env hf] at hmono
      exact hlt.trans_le hmono

/-- **ACK validation.** In every run of a new connection, every step leaves the acknowledged numbers
below the next one to be sent and no bad ACK frame changes anything, exactly if every ACK frame
acknowledges numbers that were used and, where one of its ranges runs below zero, tells the
connection nothing. -/
theorem acks_checked_iff (env : Env) (clientDcid clientScid serverScid : Bytes)
    (tp : TransportParameters) (events : List Event) :
    let r := ofEvents env (.create env clientDcid clientScid serverScid tp) events
    AtEach (fun x _ => AcksChecked env x.1 x.2) r.trace ↔ ∀ x ∈ r.trace, FairAck env x.1 x.2 := by
  refine atEach_iff_forall (I := fun r => r.conn.AcksValid)
    (fun r a h => acksChecked_iff_fairAck h env a)
    (fun r a h hfair => ((acksChecked_iff_fairAck h env a).2 hfair).1) ?_ events
  intro level hany
  cases level <;> cases hany

/-- An Initial packet that acknowledges packet 5 before anything was sent. -/
def unsentAck : Event :=
  .datagram ([0xc0, 0, 0, 0, 1, 0, 0, 0, 22, 0, 0x02, 5, 0, 0, 0] ++ List.replicate 16 0)

theorem not_acks_checked : ¬ ∀ (env : Env) (clientDcid clientScid serverScid : Bytes)
    (tp : TransportParameters) (events : List Event),
    AtEach (fun x _ => AcksChecked env x.1 x.2)
      (ofEvents env (.create env clientDcid clientScid serverScid tp) events).trace := by
  intro h
  have hrun := atEach_step.1 (h plain [] [] [] {} [unsentAck])
  have hstep : ∃ x ∈ (ofEvents plain (.create plain [] [] [] {}) [unsentAck]).trace,
      ((x.1.perform plain x.2).spaces .initial).anyAcked = true ∧
        ¬ ((x.1.perform plain x.2).spaces .initial).largestAckedPn <
          ((x.1.perform plain x.2).spaces .initial).nextSendPn := by
    decide +kernel
  obtain ⟨x, hx, hany, hge⟩ := hstep
  exact hge ((hrun x hx).1 .initial hany)

end Run

/-! ## Packets are settled once -/

/-- The connection has come from `c`: packet numbers have only grown, and under those that `c` had
used, records have stayed as they were or are gone. -/
structure Connection.Later (c c' : Connection) : Prop where
  fresh : PnFresh c'
  nextPn : ∀ level, c.nextPn level ≤ c'.nextPn level
  sent : ∀ level pn r, pn < c.nextPn level →
    (c'.sent level).find? pn = some r → (c.sent level).find? pn = some r

theorem Connection.Later.perform (h : Later c c') (env : Env) (a : Action) :
    Later c (c'.perform env a) where
  fresh := h.fresh.perform env a
  nextPn level := (h.nextPn level).trans (c'.nextPn_le_perform env a level)
  sent := by
    intro level pn r hpn
    refine c'.perform_rule env a (fun _ => h.sent level pn r hpn) fun _ hr => ?_
    apply h.sent level pn r hpn
    rcases a.send_or_ne with ⟨l, rfl⟩ | hs
    · have hrec := c'.recorded_buildAndSend env l
      change ((c'.buildAndSend env l).conn.sent level).find? pn = some r at hr
      by_cases hout : c'.pendingClose = none ∧ (c'.buildAndSend env l).datagram.isSome = true
      · obtain ⟨r', -, hfind⟩ := hrec.find? h.fresh hout
        rw [hfind, if_neg] at hr
        · exact hr
        · rintro ⟨rfl, rfl⟩
          exact absurd (h.nextPn _) (Nat.not_le.mpr hpn)
      · rwa [hrec.kept hout] at hr
    · exact c'.sentLe_act env hs level pn r hr

/-- **Settled once.** Whatever a connection does after any run, a packet that was acknowledged or
given up is not in flight again, and until then its record does not change. -/
theorem Run.later_performAll (env : Env) (clientDcid clientScid serverScid : Bytes)
    (tp : TransportParameters) (as bs : List Action) :
    let r := performAll env ⟨.create env clientDcid clientScid serverScid tp, []⟩ as
    r.conn.Later (r.performAll env bs).conn := by
  intro r
  have hinit : (Connection.create env clientDcid clientScid serverScid tp).PnFresh := nofun
  have hfresh : r.conn.PnFresh := Machine.run_induction (I := fun r : Run => r.conn.PnFresh)
    (fun _ a h => h.perform env a) hinit as
  exact Machine.run_induction (I := fun r' : Run => r.conn.Later r'.conn)
    (fun _ a h => h.perform env a) ⟨hfresh, fun _ => Nat.le_refl _, fun _ _ _ _ hr => hr⟩ bs

end Spaznet.Quic
