import Spaznet.Quic.Stream.Finish
import Spaznet.Quic.Verify.SendAccounting

/-!
# DataRecvd means delivered

A stream is in state DataRecvd exactly if a FIN was written and every byte and the FIN were carried
in some packet that was acknowledged while in flight. Acknowledgements of packets that were given up
do not count: their frames are sent again. The code infers from offsets whether a frame carried the
FIN, so the FIN has to be written with bytes left to send, or after all were acknowledged; two runs
show what happens otherwise.
-/

namespace Spaznet.Quic

open Connection Ranges List Function Stream

namespace Stream

theorem Finishing.fin_of_empty (h : Finishing (sf :: out) s) (hlen : sf.data.length = 0) :
    sf.fin = true := by
  have hmem : sf ∈ sf :: out := mem_cons_self
  have hdata := eq_nil_of_length_eq_zero hlen
  cases h with
  | opening h | withLastByte h => exact absurd hdata (h.frames sf hmem).2
  | alone h => exact (h.frames sf hmem).1

end Stream

theorem covers_map_range {frames : List StreamFrame} : Covers (frames.map StreamFrame.range) i ↔
    ∃ sf ∈ frames, sf.offset ≤ i ∧ i < sf.offset + sf.data.length := by
  simp [Covers, Within, StreamFrame.range]

/-- The send side of a stream agrees with its history, FIN included. -/
structure Tracked (h : SendHistory) (out : List StreamFrame) (s : Stream) : Prop where
  accounted : s.Accounted h.written out
  finishing : s.Finishing out
  confirmed : s.Confirmed h.finWritten h.acked

namespace Tracked

variable {h : SendHistory} {out : List StreamFrame} {s : Stream}

theorem of_blank (hs : s.Blank) : Tracked {} [] s := by
  refine ⟨.of_blank hs fun _ hsf => absurd hsf not_mem_nil, .opening (.of_blank hs),
    congrArg sendFinQueued hs, fun i => ?_, ?_⟩
  · have hbase : s.sendBufBaseOffset = 0 := congrArg sendBufBaseOffset hs
    have hacked : s.ackedRanges = [] := congrArg ackedRanges hs
    simp [Stream.Acked, hbase, hacked]
  · have hfin : s.sendFinAcked = false := congrArg sendFinAcked hs
    simp [hfin]

/-- A stream that is send-done, or never wrote, has nothing on its way. -/
theorem out_eq_nil (hJ : Tracked h out s) (hdone : s.sendDone = true ∨ s.sendState = .ready) :
    out = [] := by
  rcases hdone with hdone | hready
  · simp only [sendDone, Bool.or_eq_true, beq_iff_eq] at hdone
    exact hJ.finishing.out_of_done (hdone.resolve_right hJ.accounted.not_reset.2) fun hbase =>
      hJ.accounted.no_bytes (.inl hbase)
  · exact hJ.finishing.out_of_ready hready

theorem of_mem_iff (hJ : Tracked h out s) (hw : h'.writes = h.writes)
    (hacked : ∀ sf, sf ∈ h'.acked ↔ sf ∈ h.acked) : Tracked h' out s := by
  have hwritten : h'.written = h.written :=
    show h'.writes.written = h.writes.written by rw [hw]
  have hfin : h'.finWritten = h.finWritten :=
    show h'.writes.finWritten = h.writes.finWritten by rw [hw]
  refine ⟨hwritten ▸ hJ.accounted, hJ.finishing, hfin ▸ hJ.confirmed.queued, fun i => ?_, ?_⟩
  · rw [hJ.confirmed.bytes, covers_map_range, covers_map_range]
    simp only [hacked]
  · rw [hJ.confirmed.fin]
    simp only [hacked]

end Tracked

theorem tracked_rules : SendRules Tracked
    (fun s data fin => s.TakesWrite data fin ∧ s.FinFits data fin) where
  congr hJ heq := ⟨hJ.accounted.congr heq, hJ.finishing.congr heq, hJ.confirmed.congr heq⟩
  perm hJ hp := ⟨hJ.accounted.perm hp, hJ.finishing.perm hp, hJ.confirmed⟩
  write {h out s data fin} hJ hw := by
    have hfin : (h.write s data fin).finWritten =
        if s.writable then h.finWritten || fin else h.finWritten := by
      unfold SendHistory.write
      split <;> rfl
    have hacked : (h.write s data fin).acked = h.acked := by
      unfold SendHistory.write
      split <;> rfl
    refine ⟨accounted_rules.write hJ.accounted hw.1, hJ.finishing.write hJ.accounted hw.2, ?_⟩
    rw [hfin, hacked]
    exact hJ.confirmed.write data fin
  pullSend hJ maxBytes maxFresh id := by
    obtain ⟨p, s', hpull, hacc⟩ := hJ.accounted.pullSend maxBytes maxFresh id
    have hstep := pullSend_step hpull
    exact ⟨p, s', hpull, hacc, hJ.finishing.pullSend hJ.accounted hstep hacc,
      hstep.confirmed hJ.confirmed⟩
  onAcked hJ := by
    obtain ⟨s', hs', hacc⟩ := hJ.accounted.onAcked
    have hstep := onAcked_step (hJ.finishing.fin_eq hJ.accounted)
      hJ.finishing.fin_of_empty hs'
    exact ⟨s', hs', hacc, hJ.finishing.onAcked hJ.accounted hacc hstep,
      hJ.confirmed.onAcked hstep⟩
  onLost hJ :=
    ⟨hJ.accounted.onLost, hJ.finishing.onLost hJ.accounted, hJ.confirmed.onLost _ _⟩
  stray hblank hJ := nomatch hJ.out_eq_nil (.inr (congrArg sendState hblank))
  retire hJ hdone hblank := hJ.out_eq_nil hdone ▸ .of_blank hblank

/-! ## What was sent and what was acknowledged -/

namespace Connection

def inFlight (c : Connection) (level : EncryptionLevel) (pn : Nat) : Bool :=
  ((c.sent level).find? pn).isSome

end Connection

def AckFrame.Acknowledges (f : AckFrame) (pn : Nat) : Prop := ∃ i ∈ f.intervals, i.1 ≤ pn ∧ pn ≤ i.2
  deriving Decidable

namespace Run

/-- The STREAM frames that went out, with the level and number of their packets. A retired stream
takes its frames along: its id may be used anew. -/
def sentFrames (env : Env) :
    List (Connection × Action) → List (EncryptionLevel × Nat × StreamFrame)
  | [] => []
  | (c, a) :: past =>
    if c.faulted then sentFrames env past
    else match a with
      | .send level =>
        (c.streamsOut env level).map (fun sf => (level, c.nextPn level, sf)) ++ sentFrames env past
      | .retire => (sentFrames env past).filter fun x => !c.retires x.2.2.streamId
      | _ => sentFrames env past

/-- The STREAM frames that were carried in a packet the peer acknowledged, of the packets that count
when the acknowledgement arrives. -/
def ackedFrames (counts : Connection → EncryptionLevel → Nat → Bool) (env : Env) :
    List (Connection × Action) → List StreamFrame
  | [] => []
  | (c, a) :: past =>
    if c.faulted then ackedFrames counts env past
    else match a with
      | .frame level (.ack f) =>
        ((sentFrames env past).filter fun x =>
          x.1 = level ∧ f.Acknowledges x.2.1 ∧ counts c level x.2.1 = true).map (·.2.2) ++
          ackedFrames counts env past
      | .retire => (ackedFrames counts env past).filter fun sf => !c.retires sf.streamId
      | _ => ackedFrames counts env past

def finWritten (id : Nat) (trace : List (Connection × Action)) : Bool :=
  (history id trace).finWritten

/-- After a step, a stream is in state DataRecvd exactly if a FIN was written and every written byte
and the FIN were carried in acknowledged packets that count. -/
def Delivered (counts : Connection → EncryptionLevel → Nat → Bool) (env : Env)
    (x : Connection × Action) (past : List (Connection × Action)) : Prop :=
  ∀ id s, (x.1.perform env x.2).findStream id = some s →
    (s.sendState = .dataRecvd ↔ finWritten id (x :: past) = true ∧
      (∀ i < (written id (x :: past)).length, ∃ sf ∈ ackedFrames counts env (x :: past),
        sf.streamId = id ∧ sf.offset ≤ i ∧ i < sf.offset + sf.data.length) ∧
      ∃ sf ∈ ackedFrames counts env (x :: past), sf.streamId = id ∧ sf.fin = true)

end Run

/-- A FIN that is written travels with the last byte, or after all bytes were acknowledged. -/
def Action.finFits (c : Connection) : Action → Bool
  | .writeStream streamId data fin => decide ((c.streamOrNew streamId).FinFits data fin)
  | _ => true

/-- FINs are written in time, streams keep within 64 bits, and a stream that is retired has nothing
on its way. -/
def Action.Careful (c : Connection) (a : Action) : Prop :=
  (a.writesFit c = true ∧ a.finFits c = true) ∧ RetiresDone c a
  deriving Decidable

namespace Run

structure SentInv (env : Env) (r : Run) : Prop where
  recorded : ∀ level pn rec, (r.conn.sent level).find? pn = some rec → ∀ sf ∈ rec.streams,
    (level, pn, sf) ∈ sentFrames env r.trace
  complete : ∀ level pn sf, (level, pn, sf) ∈ sentFrames env r.trace →
    ∀ rec, (r.conn.sent level).find? pn = some rec → sf ∈ rec.streams
  taken : ∀ level pn sf, (level, pn, sf) ∈ sentFrames env r.trace → pn < r.conn.nextPn level

variable {env : Env} {r : Run} {a : Action}

theorem sentFrames_cons (hf : c.faulted = false) (a : Action)
    (past : List (Connection × Action)) : sentFrames env ((c, a) :: past) = match a with
      | .send level =>
        (c.streamsOut env level).map (fun sf => (level, c.nextPn level, sf)) ++ sentFrames env past
      | .retire => (sentFrames env past).filter fun x => !c.retires x.2.2.streamId
      | _ => sentFrames env past :=
  if_neg (by rw [hf]; nofun)

/-- Packets leave `sent_`, and only frames of no record are forgotten. -/
theorem SentInv.of_sentLe (h : SentInv env r) (hle : SentLe r'.conn r.conn)
    (hpn : ∀ level, r.conn.nextPn level ≤ r'.conn.nextPn level)
    (hsub : ∀ x ∈ sentFrames env r'.trace, x ∈ sentFrames env r.trace)
    (hkept : ∀ level pn rec, (r'.conn.sent level).find? pn = some rec → ∀ sf ∈ rec.streams,
      (level, pn, sf) ∈ sentFrames env r.trace → (level, pn, sf) ∈ sentFrames env r'.trace) :
    SentInv env r' where
  recorded level pn rec hrec sf hsf :=
    hkept level pn rec hrec sf hsf (h.recorded level pn rec (hle level pn rec hrec) sf hsf)
  complete level pn sf hsf rec hrec :=
    h.complete level pn sf (hsub _ hsf) rec (hle level pn rec hrec)
  taken level pn sf hsf := (h.taken level pn sf (hsub _ hsf)).trans_le (hpn level)

theorem SentInv.send (h : SentInv env r) (hfresh : PnFresh r.conn) (hf : r.conn.faulted = false)
    (level : EncryptionLevel) : SentInv env (r.perform env (.send level)) := by
  have hconn : (r.perform env (.send level)).conn = (r.conn.buildAndSend env level).conn :=
    perform_of_not_faulted env hf _
  have hmem (x : EncryptionLevel × Nat × StreamFrame) :
      x ∈ sentFrames env (r.perform env (.send level)).trace ↔
        x.1 = level ∧ x.2.1 = r.conn.nextPn level ∧ x.2.2 ∈ r.conn.streamsOut env level ∨
          x ∈ sentFrames env r.trace := by
    show x ∈ sentFrames env ((r.conn, .send level) :: r.trace) ↔ _
    rw [sentFrames_cons hf, mem_append, mem_map]
    refine or_congr_left ⟨?_, ?_⟩
    · rintro ⟨sf, hsf, rfl⟩
      exact ⟨rfl, rfl, hsf⟩
    · rintro ⟨h₁, h₂, h₃⟩
      exact ⟨x.2.2, h₃, by rw [← h₂, ← h₁]⟩
  have hrec := r.conn.recorded_buildAndSend env level
  by_cases hout : r.conn.pendingClose = none ∧
      (r.conn.buildAndSend env level).datagram.isSome = true
  · obtain ⟨rec, hstreams, hfind⟩ := hrec.find? hfresh hout
    have hcarried (sf : StreamFrame) : sf ∈ r.conn.streamsOut env level ↔ sf ∈ rec.streams := by
      rw [mem_streamsOut, hstreams, and_iff_right hout]
    refine ⟨fun l pn rec' hrec' sf hsf => ?_, fun l pn sf hsf rec' hrec' => ?_,
      fun l pn sf hsf => ?_⟩
    · rw [hconn, hfind] at hrec'
      rw [hmem]
      split at hrec'
      next heq =>
        cases hrec'
        exact .inl ⟨heq.1, heq.2, (hcarried sf).2 hsf⟩
      next => exact .inr (h.recorded l pn rec' hrec' sf hsf)
    · rw [hconn, hfind] at hrec'
      rcases (hmem _).1 hsf with ⟨hl, hp, hsf⟩ | hsf
      · rw [if_pos ⟨hl, hp⟩] at hrec'
        cases hrec'
        exact (hcarried sf).1 hsf
      · have hlt := h.taken l pn sf hsf
        rw [if_neg fun hn => by rw [hn.1, hn.2] at hlt; exact Nat.lt_irrefl _ hlt] at hrec'
        exact h.complete l pn sf hsf rec' hrec'
    · rw [hconn]
      rcases (hmem _).1 hsf with ⟨hl, hp, -⟩ | hsf
      · rw [show l = level from hl, show pn = _ from hp, hrec.nextPn_succ hout.2]
        exact Nat.lt_succ_self _
      · exact (h.taken l pn sf hsf).trans_le (hrec.nextPn_le l)
  · -- nothing is recorded, and nothing went out
    have hno (sf : StreamFrame) : sf ∉ r.conn.streamsOut env level := fun hsf =>
      hout (mem_streamsOut.1 hsf).1
    have hsame (x : EncryptionLevel × Nat × StreamFrame) :
        x ∈ sentFrames env (r.perform env (.send level)).trace ↔ x ∈ sentFrames env r.trace := by
      rw [hmem]
      exact or_iff_right fun hx => hno _ hx.2.2
    refine h.of_sentLe (fun l pn rec' hrec' => ?_) (hconn ▸ hrec.nextPn_le)
      (fun x => (hsame x).1) fun _ _ _ _ _ _ => (hsame _).2
    rwa [hconn, hrec.kept hout] at hrec'

def known (env : Env) (trace : List (Connection × Action)) (id : Nat) : SendHistory :=
  { history id trace with acked := framesOf id (ackedFrames inFlight env trace) }

theorem mem_framesOf {id : Nat} :
    sf ∈ framesOf id out ↔ sf ∈ out ∧ sf.streamId = id := by
  rw [framesOf, mem_filter, decide_eq_true_eq]

theorem mem_ackAll (h : Nat → SendHistory) (frames : List StreamFrame) (id : Nat)
    (sf : StreamFrame) : sf ∈ (ackAll h frames id).acked ↔
      (sf ∈ frames ∧ sf.streamId = id) ∨ sf ∈ (h id).acked := by
  induction frames generalizing h with
  | nil => simp [ackAll]
  | cons f frames ih =>
    refine (ih _).trans ?_
    dsimp only
    by_cases hid : id = f.streamId
    · rw [hid, update_self, SendHistory.ack]
      simp only [mem_cons]
      constructor
      · rintro (⟨hsf, hid⟩ | rfl | hsf)
        · exact .inl ⟨.inr hsf, hid⟩
        · exact .inl ⟨.inl rfl, rfl⟩
        · exact .inr hsf
      · rintro (⟨rfl | hsf, hid⟩ | hsf)
        · exact .inr (.inl rfl)
        · exact .inl ⟨hsf, hid⟩
        · exact .inr (.inr hsf)
    · rw [update_of_ne hid, mem_cons]
      refine or_congr_left (and_congr_left fun hsf => (or_iff_right ?_).symm)
      rintro rfl
      exact hid hsf.symm

theorem SentInv.mem_carried (h : SentInv env r) {f : AckFrame}
    (hc : Carried r.conn level f.intervals frames) (sf : StreamFrame) : sf ∈ frames ↔
      ∃ pn, (level, pn, sf) ∈ sentFrames env r.trace ∧ f.Acknowledges pn ∧
        r.conn.inFlight level pn = true := by
  rw [hc]
  constructor
  · rintro ⟨pn, rec, hfind, hcov, hsf⟩
    exact ⟨pn, h.recorded level pn rec hfind sf hsf, hcov, by rw [inFlight, hfind]; rfl⟩
  · rintro ⟨pn, hsf, hcov, hsome⟩
    obtain ⟨rec, hfind⟩ := Option.isSome_iff_exists.1 hsome
    exact ⟨pn, rec, hfind, hcov, h.complete level pn sf hsf rec hfind⟩

/-- The histories follow the acknowledgements of the run. -/
theorem SentInv.acked_step (h : SentInv env r) (hf : r.conn.faulted = false)
    (hstep : HistoryStep r.conn (known env r.trace) h' a) (id : Nat) (sf : StreamFrame) :
    sf ∈ (h' id).acked ↔
      sf ∈ ackedFrames inFlight env ((r.conn, a) :: r.trace) ∧ sf.streamId = id := by
  have hknown : sf ∈ (known env r.trace id).acked ↔
      sf ∈ ackedFrames inFlight env r.trace ∧ sf.streamId = id := mem_framesOf
  unfold ackedFrames
  rw [hf, if_neg Bool.false_ne_true]
  cases a with
  | writeStream streamId data fin =>
    rw [show h' = _ from hstep, ← hknown]
    by_cases hid : id = streamId
    · rw [hid, update_self]
      unfold SendHistory.write
      split <;> rfl
    · rw [update_of_ne hid]
  | retire =>
    rw [show h' = _ from hstep]
    dsimp only
    rw [mem_filter]
    cases hret : r.conn.retires id with
    | true =>
      refine iff_of_false (fun hn => absurd hn not_mem_nil) ?_
      rintro ⟨⟨-, hn⟩, rfl⟩
      rw [hret] at hn
      cases hn
    | false =>
      rw [if_neg Bool.false_ne_true, hknown]
      refine and_congr_left fun hid => (and_iff_left ?_).symm
      rw [hid, hret]
      rfl
  | frame level f =>
    cases f with
    | ack f =>
      obtain ⟨frames, hcarried, rfl⟩ := hstep
      rw [mem_ackAll, hknown, h.mem_carried hcarried]
      simp only [mem_append, mem_map, mem_filter, decide_eq_true_eq]
      constructor
      · rintro (⟨⟨pn, hsf, hcov, hlive⟩, hid⟩ | ⟨hsf, hid⟩)
        · exact ⟨.inl ⟨_, ⟨hsf, rfl, hcov, hlive⟩, rfl⟩, hid⟩
        · exact ⟨.inr hsf, hid⟩
      · rintro ⟨⟨⟨l, pn, _⟩, ⟨hsf, rfl, hcov, hlive⟩, rfl⟩ | hsf, hid⟩
        · exact .inl ⟨⟨pn, hsf, hcov, hlive⟩, hid⟩
        · exact .inr ⟨hsf, hid⟩
    | _ =>
      rw [show h' = _ from hstep]
      exact hknown
  | _ =>
    rw [show h' = _ from hstep]
    exact hknown

/-- The invariant along a run. The frames `rest` were collected for packets that could not be
sealed. -/
structure TrackInv (env : Env) (r : Run) : Prop where
  fresh : PnFresh r.conn
  sent : SentInv env r
  books : ∃ rest, Books Tracked (known env r.trace) (flight r.conn.sent ++ rest) r.conn

theorem retires_eq_false {rec : SentRecord}
    (hb : Books Tracked h (flight c.sent ++ rest) c) (hr : RetiresDone c .retire)
    (hfind : (c.sent level).find? pn = some rec) (hsf : sf ∈ rec.streams) :
    c.retires sf.streamId = false := by
  refine Bool.eq_false_iff.2 fun hret => ?_
  obtain ⟨s, hs, hterm⟩ := (Option.any_eq_true _ _).1 hret
  have hdone := hr rfl (sf.streamId, s) (mem_filter.2 ⟨OrdMap.mem_entries.2 hs, hterm⟩)
  have hJ := hb sf.streamId
  rw [streamOrNew_of_findStream hs] at hJ
  have hmem : sf ∈ framesOf sf.streamId (flight c.sent ++ rest) :=
    mem_framesOf.2 ⟨mem_append_left _ (mem_flight.2 ⟨level, pn, rec, hfind, hsf⟩), rfl⟩
  rw [hJ.out_eq_nil hdone] at hmem
  cases hmem

theorem SentInv.step (h : SentInv env r) (hfresh : PnFresh r.conn) (hf : r.conn.faulted = false)
    (hb : Books Tracked h₀ (flight r.conn.sent ++ rest) r.conn) (hr : RetiresDone r.conn a)
    (hle : (∀ level, a ≠ .send level) → SentLe (r.conn.act env a) r.conn) :
    SentInv env (r.perform env a) := by
  rcases a.send_or_ne with ⟨level, rfl⟩ | hs
  · exact h.send hfresh hf level
  have hconn : (r.perform env a).conn = r.conn.act env a := perform_of_not_faulted env hf a
  have hle := hle hs
  refine h.of_sentLe (hconn ▸ hle) (fun _ => by rw [hconn, r.conn.nextPn_act env hs]) ?_ ?_
  · show ∀ x ∈ sentFrames env ((r.conn, a) :: r.trace), _
    rw [sentFrames_cons hf]
    cases a with
    | send level => exact absurd rfl (hs level)
    | retire => exact fun x hx => (mem_filter.1 hx).1
    | _ => exact fun x hx => hx
  · intro level pn rec hrec sf hsf hmem
    show _ ∈ sentFrames env ((r.conn, a) :: r.trace)
    rw [sentFrames_cons hf]
    cases a with
    | send level => exact absurd rfl (hs level)
    | retire =>
      have hrec := hle level pn rec (hconn ▸ hrec)
      refine mem_filter.2 ⟨hmem, ?_⟩
      rw [retires_eq_false hb hr hrec hsf]
      rfl
    | _ => exact hmem

theorem TrackInv.perform (hI : TrackInv env r)
    (ha : r.conn.faulted = false → a.Careful r.conn) : TrackInv env (r.perform env a) := by
  obtain ⟨rest, hb⟩ := hI.books
  cases hf : r.conn.faulted with
  | true =>
    have hconn : (r.perform env a).conn = r.conn := perform_of_faulted env hf a
    have hsent : sentFrames env (r.perform env a).trace = sentFrames env r.trace := if_pos hf
    have hknown : known env (r.perform env a).trace = known env r.trace := by
      funext id
      have hhist : history id (r.perform env a).trace = history id r.trace := if_pos hf
      have hacked : ackedFrames inFlight env (r.perform env a).trace =
          ackedFrames inFlight env r.trace := if_pos hf
      rw [known, known, hhist, hacked]
    refine ⟨hconn ▸ hI.fresh, ?_, rest, by rwa [hconn, hknown]⟩
    refine hI.sent.of_sentLe (fun _ _ _ hrec => hconn ▸ hrec) (fun _ => hconn ▸ Nat.le_refl _)
      (fun _ hx => hsent ▸ hx) fun _ _ _ _ _ _ hx => hsent ▸ hx
  | false =>
    obtain ⟨⟨hfits, hfin⟩, hretire⟩ := ha hf
    have hconn : (r.perform env a).conn = r.conn.act env a := perform_of_not_faulted env hf a
    obtain ⟨h', rest', hstep⟩ := hb.act tracked_rules hI.fresh hf env a
      (fun _ _ _ heq => ⟨Action.takesWrite (heq ▸ hfits), by subst heq; exact of_decide_eq_true hfin⟩)
      hretire
    refine ⟨hconn ▸ hstep.fresh, hI.sent.step hI.fresh hf hb hretire hstep.sentLe, rest', ?_⟩
    rw [hconn]
    intro id
    refine (hstep.books id).of_mem_iff ?_ fun sf => ?_
    · have hpast (id : Nat) : (known env r.trace id).writes = history id r.trace :=
        writes_history id r.trace
      exact (writes_history id _).trans (history_step hf hstep.history hpast id).symm
    · exact mem_framesOf.trans (hI.sent.acked_step hf hstep.history id sf).symm

theorem TrackInv.delivered (hI : TrackInv env (r.perform env a)) :
    Delivered inFlight env (r.conn, a) r.trace := by
  obtain ⟨rest, hb⟩ := hI.books
  intro id s hs
  have hJ := hb id
  rw [show (r.perform env a).conn.streamOrNew id = s from streamOrNew_of_findStream hs] at hJ
  rw [hJ.finishing.dataRecvd_iff hJ.accounted hJ.confirmed]
  simp only [covers_map_range, known, mem_framesOf, and_assoc]
  exact Iff.rfl

/-- **DataRecvd means delivered.** Along every sequence of actions of a new connection in which each
FIN is written with bytes left to send or after all bytes were acknowledged, a stream is in state
DataRecvd exactly if its FIN was written and packets with every byte and with the FIN were
acknowledged while in flight. -/
theorem dataRecvd_iff_delivered (env : Env) (clientDcid clientScid serverScid : Bytes)
    (tp : TransportParameters) (r : Run)
    (hr : Reaches env ⟨.create env clientDcid clientScid serverScid tp, []⟩ r)
    (hcareful : ∀ x ∈ r.trace, x.1.faulted = false → x.2.Careful x.1) :
    AtEach (Delivered inFlight env) r.trace := by
  have hinit : TrackInv env ⟨.create env clientDcid clientScid serverScid tp, []⟩ :=
    ⟨(fun _ _ _ h => nomatch h),
      ⟨(fun _ _ _ h => nomatch h), (fun _ _ _ h => nomatch h), (fun _ _ _ h => nomatch h)⟩,
      [], fun id => Tracked.of_blank (blank_streamOrNew rfl)⟩
  exact hr.atEach_imp (Q := fun x _ => x.1.faulted = false → x.2.Careful x.1)
    (fun r a hI ha => ⟨(hI.perform ha).delivered, hI.perform ha⟩) hinit
    ((atEach_step (Q := fun c a => c.faulted = false → a.Careful c)).2 hcareful)

theorem retransmission_delivered :
    (retransmissionRun.conn.findStream 0).map sendState = some .dataRecvd ∧
    AtEach (Delivered inFlight (Env.plainEstablished openPeer)) retransmissionRun.trace :=
  ⟨by decide +kernel, dataRecvd_iff_delivered _ [] [] [] {} _ (reaches_ofEvents _ _)
    (by decide +kernel)⟩

/-- All bytes are on their way when the FIN is written; the acknowledgement of the bytes passes for
one of the FIN. -/
def finOnlyRun : Run := ofEvents (Env.plainEstablished openPeer)
  (.create (Env.plainEstablished openPeer) [] [] [] {})
  [.timer, .markPeerAddressValidated, .writeStream 0 [1, 2, 3] false, .timer,
    .writeStream 0 [] true, .timer, .datagram (ackPacket 0 0 0)]

/-- The peer acknowledges the packets that were given up. -/
def lateAckRun : Run := ofEvents (Env.plainEstablished openPeer)
  (.create (Env.plainEstablished openPeer) [] [] [] {})
  (lossEvents ++ [.datagram (ackPacket 1 0 2)])

def finalState (env : Env) (id : Nat) (trace : List (Connection × Action)) : Option SendState :=
  (trace.head?.bind fun x => (x.1.perform env x.2).findStream id).map sendState

theorem delivered_last (h : AtEach (Delivered counts env) past)
    (hstate : finalState env k past = some st) :
    st = .dataRecvd ↔ finWritten k past = true ∧
      (∀ i < (written k past).length, ∃ sf ∈ ackedFrames counts env past,
        sf.streamId = k ∧ sf.offset ≤ i ∧ i < sf.offset + sf.data.length) ∧
      ∃ sf ∈ ackedFrames counts env past, sf.streamId = k ∧ sf.fin = true := by
  cases past with
  | nil => cases hstate
  | cons x past =>
    obtain ⟨s, hs, rfl⟩ := Option.map_eq_some_iff.1 hstate
    exact h x past suffix_rfl k s hs

/-- If every acknowledged packet counts, the equivalence fails both ways: everything acknowledged
without DataRecvd, and DataRecvd without an acknowledged FIN. -/
theorem dataRecvd_not_delivered :
    ¬ AtEach (Delivered (fun _ _ _ => true) (Env.plainEstablished openPeer)) lateAckRun.trace ∧
    ¬ AtEach (Delivered (fun _ _ _ => true) (Env.plainEstablished openPeer)) finOnlyRun.trace := by
  constructor
  · have hstate : finalState (Env.plainEstablished openPeer) 0 lateAckRun.trace =
        some .dataSent := by decide +kernel
    intro h
    cases (delivered_last h hstate).2 (by decide +kernel)
  · have hstate : finalState (Env.plainEstablished openPeer) 0 finOnlyRun.trace =
        some .dataRecvd := by decide +kernel
    have hfin : ∀ sf ∈ ackedFrames (fun _ _ _ => true) (Env.plainEstablished openPeer)
        finOnlyRun.trace, sf.fin = false := by decide +kernel
    intro h
    obtain ⟨-, -, sf, hsf, -, hf⟩ := (delivered_last h hstate).1 rfl
    cases (hfin sf hsf).symm.trans hf

end Run

end Spaznet.Quic
