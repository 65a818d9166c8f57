import Spaznet.Quic.Connection.Delivery
import Spaznet.Quic.Connection.Spaces

/-!
# Packets in flight

The STREAM frames that `sent_` keeps, and the packet numbers under which it keeps them: the next
number of a level is never in use.
-/

namespace Spaznet.Quic

open List Function EncryptionLevel

def EncryptionLevel.all : List EncryptionLevel := [.initial, .earlyData, .handshake, .application]

theorem EncryptionLevel.mem_all (level : EncryptionLevel) : level ∈ all := by
  cases level <;> decide

namespace Connection

def flight (sent : EncryptionLevel → OrdMap SentRecord) : List StreamFrame :=
  all.flatMap fun level => (sent level).entries.flatMap fun e => e.2.streams

theorem mem_flight {sent : EncryptionLevel → OrdMap SentRecord} : sf ∈ flight sent ↔
    ∃ level pn r, (sent level).find? pn = some r ∧ sf ∈ r.streams := by
  simp only [flight, mem_flatMap, mem_all, true_and]
  constructor
  · rintro ⟨level, e, he, hsf⟩
    exact ⟨level, e.1, e.2, OrdMap.mem_entries.1 he, hsf⟩
  · rintro ⟨level, pn, r, hr, hsf⟩
    exact ⟨level, (pn, r), OrdMap.mem_entries.2 hr, hsf⟩

section
variable (sent : EncryptionLevel → OrdMap SentRecord) (level : EncryptionLevel)

theorem flight_perm : (flight sent).Perm (((sent level).entries.flatMap fun e => e.2.streams) ++
      (all.erase level).flatMap fun level =>
        (sent level).entries.flatMap fun e => e.2.streams) :=
  (perm_cons_erase level.mem_all).flatMap_right _

theorem flight_update (m : OrdMap SentRecord) : (flight (update sent level m)).Perm
      ((m.entries.flatMap fun e => e.2.streams) ++
        (all.erase level).flatMap fun level =>
          (sent level).entries.flatMap fun e => e.2.streams) := by
  have hrest : ((all.erase level).flatMap fun l =>
      (update sent level m l).entries.flatMap fun e => e.2.streams) =
      (all.erase level).flatMap fun l =>
        (sent l).entries.flatMap fun e => e.2.streams := by
    refine flatMap_congr fun l hl => ?_
    have hne : l ≠ level := by
      rintro rfl
      revert hl
      cases l <;> decide
    rw [update_of_ne hne]
  have hperm := flight_perm (update sent level m) level
  rwa [update_self, hrest] at hperm

end

theorem flight_erase {sent : EncryptionLevel → OrdMap SentRecord} {e : Nat × SentRecord}
    (he : e ∈ (sent level).entries) : (flight sent).Perm
      (e.2.streams ++ flight (update sent level ((sent level).erase e.1))) := by
  have hlevel := (OrdMap.entries_erase_perm he).flatMap_right fun e => e.2.streams
  refine (flight_perm sent level).trans ((hlevel.append_right _).trans ?_)
  rw [flatMap_cons, append_assoc]
  exact (flight_update sent level _).symm.append_left _

theorem flight_emplace {sent : EncryptionLevel → OrdMap SentRecord}
    (hpn : (sent level).find? pn = none) (r : SentRecord) :
    (flight (update sent level ((sent level).emplace pn r))).Perm
      (r.streams ++ flight sent) := by
  have hlevel := (OrdMap.entries_emplace_perm hpn r).flatMap_right fun e => e.2.streams
  refine (flight_update sent level _).trans ((hlevel.append_right _).trans ?_)
  rw [flatMap_cons, append_assoc]
  exact (flight_perm sent level).symm.append_left _

def SentLe (c' c : Connection) : Prop :=
  ∀ level pn r, (c'.sent level).find? pn = some r → (c.sent level).find? pn = some r

theorem SentLe.refl (c : Connection) : SentLe c c := fun _ _ _ h => h

theorem SentLe.trans (h : SentLe c'' c') (h' : SentLe c' c) : SentLe c'' c :=
  fun level pn r hr => h' level pn r (h level pn r hr)

theorem sentLe_erase (h : c'.sent = update c.sent level
    ((c.sent level).erase pn)) : SentLe c' c := by
  intro l n r hr
  rw [h] at hr
  by_cases hl : l = level
  · subst hl
    rw [update_self, OrdMap.find?_erase] at hr
    split at hr
    · cases hr
    · exact hr
  · rwa [update_of_ne hl] at hr

theorem sent_updateStream (c : Connection) (streamId : Nat) (f : Stream → Option Stream) :
    (c.updateStream streamId f).sent = c.sent := by
  unfold updateStream
  repeat' split
  all_goals rfl

section
variable (c : Connection) (env : Env) (level : EncryptionLevel) (e : Nat × SentRecord)

theorem sent_ackEntry : (ackEntry env level c e).sent =
      update c.sent level ((c.sent level).erase e.1) := by
  have hfold := Machine.foldl_frame (fun c sf => sent_updateStream c sf.streamId _) c e.2.streams
    (f := streamAcked)
  show update (e.2.streams.foldl streamAcked c).sent level
    (((e.2.streams.foldl streamAcked c).sent level).erase e.1) = _
  rw [hfold]

theorem sent_loseEntry : (loseEntry env level c e).sent =
      update c.sent level ((c.sent level).erase e.1) := by
  have hfold := Machine.foldl_frame (fun c sf => sent_updateStream c sf.streamId _) c e.2.streams
    (f := streamLost)
  have hdeclare : (c.declareLost env level e.2).sent = c.sent := by
    unfold declareLost
    split <;> exact hfold
  show update (c.declareLost env level e.2).sent level
    (((c.declareLost env level e.2).sent level).erase e.1) = _
  rw [hdeclare]

end

/-- **Settling rule.** A loop over packets in flight that takes each of them out keeps what one
round keeps. -/
theorem foldl_entries {I : σ → Connection → Prop}
    (hsent : ∀ c e, (f c e).sent = update c.sent level ((c.sent level).erase e.1))
    (es : List (Nat × SentRecord))
    (hstep : ∀ s c, ∀ e ∈ es, e ∈ (c.sent level).entries → I s c → I (g s e) (f c e))
    (hes : es.Sublist (c.sent level).entries) (hI : I s c) : I (es.foldl g s) (es.foldl f c) := by
  induction es generalizing s c with
  | nil => exact hI
  | cons e es ih =>
    have hsorted := pairwise_cons.1 ((c.sent level).sorted.sublist hes)
    have hes' : es.Sublist ((f c e).sent level).entries := by
      have hkept : es.filter (fun e' => e'.1 != e.1) = es :=
        filter_eq_self.2 fun e' he' => by
          have := hsorted.1 e' he'
          simp only [bne_iff_ne]
          omega
      rw [hsent, update_self, ← hkept]
      exact ((sublist_cons_self e es).trans hes).filter _
    refine ih (fun s c e' he' => hstep s c e' (mem_cons_of_mem _ he')) hes' ?_
    exact hstep s c e (mem_cons_self) (hes.subset (mem_cons_self)) hI

theorem find?_sent_foldl (hf : ∀ c e, (f c e).sent = update c.sent level ((c.sent level).erase e.1))
    (es : List (Nat × SentRecord)) (c : Connection) (pn : Nat) :
    ((es.foldl f c).sent level).find? pn =
      if pn ∈ es.map (·.1) then none else (c.sent level).find? pn := by
  induction es generalizing c with
  | nil => rfl
  | cons e es ih =>
    rw [foldl_cons, ih, hf, update_self, OrdMap.find?_erase]
    by_cases hpn : pn = e.1
    · simp [hpn]
    · simp only [map_cons, mem_cons, hpn, false_or, if_false]

/-! ## Packet numbers -/

theorem collect_frame (c : Connection) (level : EncryptionLevel) :
    (c.collect level).2.sent = c.sent ∧
      (c.collect level).2.cores = c.cores := by
  obtain ⟨_, _, _, _, _, _, _, _, _, _, h⟩ := c.collect_eq level
  exact ⟨congrArg (·.sent) h, spaces_update Space.core (congrArg (·.spaces) h) (by rfl)⟩

theorem streams_of_isEmpty {o : Outgoing} (h : o.isEmpty = true) : o.streams = [] := by
  simp only [Outgoing.isEmpty, Outgoing.frames, List.isEmpty_iff, append_eq_nil_iff,
    map_eq_nil_iff] at h
  exact h.1.1.1.2

theorem nextPn_collect_takePn (c : Connection) (level : EncryptionLevel) :
    ((c.collect level).2.takePn level).nextPn =
      update c.nextPn level (c.nextPn level + 1) := by
  rw [nextPn_takePn, nextPn_of_cores (c.collect_frame level).2]

section
variable (c : Connection) (env : Env) (level : EncryptionLevel)

theorem nextPn_recordSent (o : Outgoing) (pn bytes : Nat) (pkt : Bytes) :
    ((c.recordSent env level o pn pkt).countSent bytes).nextPn = c.nextPn := by
  refine spaces_update Space.nextSendPn rfl ?_
  split <;> rfl

/-- A packet number is taken exactly for a payload that can be encoded, whether or not the packet
can then be built. -/
theorem nextPn_buildAndSend : (c.buildAndSend env level).conn.nextPn =
      if ((c.nextFrames level).bind encodeFrames).isSome then
        update c.nextPn level (c.nextPn level + 1)
      else c.nextPn := by
  have hcollect := c.nextPn_collect_takePn level
  have hsends := c.sends_buildAndSend env level
  show _ = if (c.nextPayload level).isSome then _ else _
  generalize c.buildAndSend env level = res at hsends ⊢
  cases hsends with
  | idle hnone =>
    rw [hnone]
    rfl
  | drained _ hnone =>
    rw [hnone]
    exact nextPn_of_cores (c.collect_frame level).2
  | closeLost _ _ hsome | close _ hsome =>
    rw [hsome]
    exact c.nextPn_takePn level
  | lost _ _ hsome =>
    rw [hsome]
    exact hcollect
  | sent _ _ hsome =>
    rw [hsome]
    exact (nextPn_recordSent ..).trans hcollect

end

/-- The records of each level are kept under numbers that were taken. -/
def PnFresh (c : Connection) : Prop :=
  ∀ level pn r, (c.sent level).find? pn = some r → pn < c.nextPn level

theorem PnFresh.find?_nextPn (h : PnFresh c) (level : EncryptionLevel) :
    (c.sent level).find? (c.nextPn level) = none := by
  cases hr : (c.sent level).find? (c.nextPn level) with
  | none => rfl
  | some r => exact absurd (h level _ r hr) (Nat.lt_irrefl _)

theorem PnFresh.of_sentLe (h : PnFresh c) (hle : SentLe c' c) (hpn : c'.nextPn = c.nextPn) :
    PnFresh c' := by
  intro level pn r hr
  rw [hpn]
  exact h level pn r (hle level pn r hr)

/-- What a call of `build_and_send` did to the records and the packet numbers: a packet that went
out with frames from the queues is recorded under the next number. -/
structure Recorded (c : Connection) (level : EncryptionLevel) (frames : List StreamFrame)
    (queued : Prop) (res : SendResult) : Prop where
  sent : ∃ r : SentRecord, r.streams = frames ∧ (queued ∧ res.datagram.isSome = true →
    res.conn.sent = update c.sent level ((c.sent level).emplace (c.nextPn level) r))
  kept : ¬ (queued ∧ res.datagram.isSome = true) → res.conn.sent = c.sent
  nextPn : res.conn.nextPn = c.nextPn ∧ res.datagram = none ∨
    res.conn.nextPn = update c.nextPn level (c.nextPn level + 1)

theorem recorded_none (hsent : res.conn.sent = c.sent) (hnone : res.datagram = none)
    (hnext : res.conn.nextPn = c.nextPn ∨
      res.conn.nextPn = update c.nextPn level (c.nextPn level + 1)) :
    Recorded c level frames queued res where
  sent := ⟨{ ackEliciting := false, bytes := 0, sentAt := 0, crypto := [], streams := frames }, rfl,
    fun h => by simp [hnone] at h⟩
  kept _ := hsent
  nextPn := hnext.imp_left fun h => ⟨h, hnone⟩

theorem recorded_buildAndSend (c : Connection) (env : Env) (level : EncryptionLevel) :
    Recorded c level (c.collect level).1.streams (c.pendingClose = none)
      (c.buildAndSend env level) := by
  obtain ⟨hsent, hcores⟩ := c.collect_frame level
  have hnext := nextPn_of_cores hcores
  have hcollect := c.nextPn_collect_takePn level
  refine c.sends_rule env level fun res hsends => ?_
  cases hsends with
  | idle => exact recorded_none rfl rfl (.inl rfl)
  | closeLost => exact recorded_none rfl rfl (.inr (c.nextPn_takePn level))
  | close hclose =>
    exact ⟨⟨{ ackEliciting := false, bytes := 0, sentAt := 0, crypto := [], streams := _ }, rfl,
      fun h => absurd h.1 hclose⟩, fun _ => rfl, .inr (c.nextPn_takePn level)⟩
  | drained => exact recorded_none hsent rfl (.inl hnext)
  | lost => exact recorded_none hsent rfl (.inr hcollect)
  | sent hopen =>
    refine ⟨⟨?r, ?streams, fun _ => ?record⟩, fun h => absurd ⟨hopen, rfl⟩ h,
      .inr ((nextPn_recordSent ..).trans hcollect)⟩
    case record =>
      rw [← hsent, ← hnext]
      exact rfl
    case streams => rfl

section
variable (h : Recorded c level frames queued res)
include h

theorem Recorded.nextPn_le (l : EncryptionLevel) : c.nextPn l ≤ res.conn.nextPn l := by
  rcases h.nextPn with ⟨heq, -⟩ | heq
  · rw [heq]
  rw [heq]
  by_cases hl : l = level
  · rw [hl, update_self]
    exact Nat.le_succ _
  · rw [update_of_ne hl]

theorem Recorded.find? (hfresh : PnFresh c)
    (hout : queued ∧ res.datagram.isSome = true) : ∃ r : SentRecord,
      r.streams = frames ∧ ∀ l pn, (res.conn.sent l).find? pn =
        if l = level ∧ pn = c.nextPn level then some r else (c.sent l).find? pn := by
  obtain ⟨r, hstreams, hsent⟩ := h.sent
  refine ⟨r, hstreams, fun l pn => ?_⟩
  rw [hsent hout]
  by_cases hl : l = level
  · subst hl
    rw [update_self, OrdMap.find?_emplace _ _ _ (hfresh.find?_nextPn l)]
    simp
  · rw [update_of_ne hl, if_neg fun hn => hl hn.1]

theorem Recorded.nextPn_succ (hout : res.datagram.isSome = true) :
    res.conn.nextPn level = c.nextPn level + 1 := by
  rcases h.nextPn with ⟨-, hno⟩ | heq
  · rw [hno] at hout
    cases hout
  · rw [heq, update_self]

end

theorem PnFresh.buildAndSend (h : PnFresh c) (env : Env) (level : EncryptionLevel) :
    PnFresh (c.buildAndSend env level).conn := by
  have hrec := c.recorded_buildAndSend env level
  by_cases hout : c.pendingClose = none ∧ (c.buildAndSend env level).datagram.isSome = true
  · obtain ⟨r, -, hfind⟩ := hrec.find? h hout
    intro l pn r' hr'
    rw [hfind] at hr'
    split at hr'
    next heq =>
      rw [heq.1, heq.2, hrec.nextPn_succ hout.2]
      exact Nat.lt_succ_self _
    next => exact (h l pn r' hr').trans_le (hrec.nextPn_le l)
  · intro l pn r' hr'
    rw [hrec.kept hout] at hr'
    exact (h l pn r' hr').trans_le (hrec.nextPn_le l)

end Connection

end Spaznet.Quic
