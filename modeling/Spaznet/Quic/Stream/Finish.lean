import Spaznet.Quic.Stream.Accounting

/-!
# The FIN of a stream

The send side does not keep track of the frame that carries its FIN: `on_acked` and `on_lost` infer
from the offsets of a frame whether it did. The inference is right as long as the FIN travels either
with the last byte, or alone after all bytes were acknowledged. `Finishing out s` says so of a stream
with outstanding frames `out`; then `finAcked` and the states tell exactly what was acknowledged.
-/

namespace Spaznet.Quic

open Ranges

namespace Stream

def Acked (s : Stream) (i : Nat) : Prop := i < s.sendBufBaseOffset ∨ Covers s.ackedRanges i

theorem acked_iff {s : Stream} : s.Acked i ↔
    0 < (if i < s.sendBufBaseOffset then 1 else 0) + count s.ackedRanges i := by
  rw [Acked, covers_iff_count_pos]
  split <;> omega

theorem Accounted.acked_lt {s : Stream} (h : Accounted written out s) (hi : s.Acked i) :
    i < s.sendNextOffset := by
  have howner := h.owner i
  rw [owners] at howner
  have hpos := acked_iff.1 hi
  by_contra hlt
  rw [if_neg hlt] at howner
  omega

theorem Accounted.base_of_acked (h : Accounted written out s)
    (hall : ∀ i < s.sendHighWater, s.Acked i) : s.sendBufBaseOffset = s.sendHighWater := by
  by_contra hne
  have hle := h.base_le.trans h.next_le
  rcases hall s.sendBufBaseOffset (Nat.lt_of_le_of_ne hle hne) with hlt | ⟨r, hr, hin⟩
  · exact Nat.lt_irrefl _ hlt
  · exact absurd hin.1 (Nat.not_le_of_gt (h.acked_above r hr))

structure Opening (out : List StreamFrame) (s : Stream) : Prop where
  state : s.sendState = .ready ∧ s.sendFinQueued = false ∧ out = [] ∨ s.sendState = .send
  finSent : s.sendFinSent = false
  finAcked : s.sendFinAcked = false
  frames : ∀ sf ∈ out, sf.fin = false ∧ sf.data ≠ []
  /-- A FIN that waits has bytes to travel with, or nothing else is on its way. -/
  last : s.sendFinQueued = true →
    s.sendNextOffset < s.sendHighWater ∨ s.sendBufBaseOffset = s.sendHighWater

structure FinOut (s : Stream) : Prop where
  state : s.sendState = .dataSent ∨ s.sendState = .dataRecvd
  queued : s.sendFinQueued = true
  next : s.sendNextOffset = s.sendHighWater
  done : s.sendState = .dataRecvd ↔
    s.sendBufBaseOffset = s.sendHighWater ∧ s.sendFinAcked = true

structure WithLastByte (out : List StreamFrame) (s : Stream) : Prop extends FinOut s where
  pos : 0 < s.sendHighWater
  frames : ∀ sf ∈ out,
    (sf.fin = true ↔ sf.offset + sf.data.length = s.sendHighWater) ∧ sf.data ≠ []
  finSent : s.sendFinSent = true ↔ count s.lostRanges (s.sendHighWater - 1) = 0
  finAcked : s.sendFinAcked = true ↔ s.Acked (s.sendHighWater - 1)

structure Alone (out : List StreamFrame) (s : Stream) : Prop extends FinOut s where
  base : s.sendBufBaseOffset = s.sendHighWater
  frames : ∀ sf ∈ out, sf.fin = true ∧ sf.offset = s.sendHighWater
  one : out.length = if s.sendFinSent && !s.sendFinAcked then 1 else 0
  finSent : s.sendFinAcked = true → s.sendFinSent = true

inductive Finishing (out : List StreamFrame) (s : Stream) : Prop
  | opening (h : Opening out s)
  | withLastByte (h : WithLastByte out s)
  | alone (h : Alone out s)

/-- The acknowledgements that the stream has seen: those of the frames `acked`. -/
structure Confirmed (finWritten : Bool) (acked : List StreamFrame) (s : Stream) : Prop where
  queued : s.sendFinQueued = finWritten
  bytes : ∀ i, s.Acked i ↔ Covers (acked.map StreamFrame.range) i
  fin : s.sendFinAcked = true ↔ ∃ sf ∈ acked, sf.fin = true

section
variable {s s' : Stream} {written : Bytes} {out : List StreamFrame} {sf : StreamFrame}

theorem Finishing.congr (h : Finishing out s) (heq : s'.outbound = s.outbound) :
    Finishing out s' := by
  have hs : Finishing out s.outbound := by
    cases h with
    | opening h => exact .opening { h with }
    | withLastByte h => exact .withLastByte { h with }
    | alone h => exact .alone { h with }
  rw [← heq] at hs
  cases hs with
  | opening h => exact .opening { h with }
  | withLastByte h => exact .withLastByte { h with }
  | alone h => exact .alone { h with }

theorem Confirmed.congr (h : Confirmed finWritten acked s) (heq : s'.outbound = s.outbound) :
    Confirmed finWritten acked s' := by
  have hs : Confirmed finWritten acked s.outbound := { h with }
  rw [← heq] at hs
  exact { hs with }

theorem Finishing.perm (h : Finishing out s) (hp : out.Perm out') : Finishing out' s := by
  cases h with
  | opening h =>
    refine .opening { h with
      state := h.state.imp_left fun hready => ⟨hready.1, hready.2.1, ?_⟩
      frames := fun sf hsf => h.frames sf (hp.mem_iff.2 hsf) }
    exact List.Perm.eq_nil (hready.2.2 ▸ hp).symm
  | withLastByte h =>
    exact .withLastByte { h with frames := fun sf hsf => h.frames sf (hp.mem_iff.2 hsf) }
  | alone h =>
    exact .alone { h with
      frames := fun sf hsf => h.frames sf (hp.mem_iff.2 hsf), one := hp.length_eq ▸ h.one }

theorem Opening.of_blank
    (h : s.outbound = outbound { id := 0, recvLimit := 0, sendLimit := 0 }) : Opening [] s :=
  ⟨.inl ⟨congrArg sendState h, congrArg sendFinQueued h, rfl⟩, congrArg sendFinSent h,
    congrArg sendFinAcked h, fun _ hsf => absurd hsf List.not_mem_nil, fun hq => by
      cases (congrArg sendFinQueued h).symm.trans hq⟩

theorem Finishing.out_of_ready (h : Finishing out s) (hs : s.sendState = .ready) : out = [] := by
  cases h with
  | opening h =>
    rcases h.state with hready | hsend
    · exact hready.2.2
    · cases hs.symm.trans hsend
  | withLastByte h | alone h => rcases h.state with hst | hst <;> cases hs.symm.trans hst

/-- Once everything is acknowledged, no frame is outstanding. -/
theorem Finishing.out_of_done (h : Finishing out s) (hs : s.sendState = .dataRecvd)
    (hbytes : s.sendBufBaseOffset = s.sendHighWater → ∀ sf ∈ out, sf.data = []) : out = [] := by
  cases h with
  | opening h =>
    rcases h.state with hready | hsend
    · exact hready.2.2
    · cases hs.symm.trans hsend
  | withLastByte h =>
    refine List.eq_nil_iff_forall_not_mem.2 fun sf hsf => ?_
    exact (h.frames sf hsf).2 (hbytes (h.done.1 hs).1 sf hsf)
  | alone h =>
    have hone := h.one
    rw [(h.done.1 hs).2, Bool.not_true, Bool.and_false] at hone
    exact List.eq_nil_of_length_eq_zero hone

/-! ## Writing -/

/-- A FIN may be written while bytes are left to send with it, or after all were acknowledged. -/
def FinFits (s : Stream) (data : Bytes) (fin : Bool) : Prop :=
  s.writable = true → fin = true → s.sendNextOffset < s.sendHighWater + data.length ∨
    s.sendBufBaseOffset = s.sendHighWater + data.length
  deriving Decidable

theorem Finishing.write (h : Finishing out s) (hacc : s.Accounted written out)
    (hfin : s.FinFits data fin) : Finishing out (s.write data fin) := by
  unfold Stream.write
  cases hw : s.writable with
  | false => exact h
  | true =>
    cases h with
    | withLastByte h | alone h => rcases h.state with hst | hst <;> simp [writable, hst] at hw
    | opening h =>
      refine .opening { h with state := .inr ?_, last := fun hq => ?_ }
      · rcases h.state with hready | hsend
        · exact if_pos hready.1
        · exact (if_neg (by rw [hsend]; decide)).trans hsend
      · cases hfinw : fin with
        | true => exact hfin hw hfinw
        | false =>
          have hq : s.sendFinQueued = true := by simpa [hfinw] using hq
          have hnext := hacc.next_le
          rcases h.last hq with hlt | heq
          · exact .inl (Nat.lt_add_right _ hlt)
          -- more bytes are added, or there is nothing to do
          cases data with
          | nil => exact .inr heq
          | cons b data =>
            refine .inl (show s.sendNextOffset < s.sendHighWater + (b :: data).length from ?_)
            rw [List.length_cons]
            omega

theorem Confirmed.write (h : Confirmed finWritten acked s) (data : Bytes) (fin : Bool) :
    Confirmed (if s.writable then finWritten || fin else finWritten) acked (s.write data fin) := by
  unfold Stream.write
  cases s.writable with
  | false => exact h
  | true =>
    refine { h with queued := ?_ }
    show (s.sendFinQueued || fin) = (finWritten || fin)
    rw [h.queued]

/-! ## Sending -/

theorem PullStep.confirmed (h : PullStep s maxBytes maxFresh p s') (hc : Confirmed finWritten acked s) :
    Confirmed finWritten acked s' := by
  cases h <;> exact { hc with }

section
variable (h : Finishing out s) (hacc : s.Accounted written out)
include h hacc

/-- A FIN-only frame goes out when nothing else is on its way. -/
theorem Finishing.pullFin (hlost : s.lostRanges = []) (hqueued : s.sendFinQueued = true)
    (hsent : s.sendFinSent = false) (hnext : s.sendNextOffset = s.sendHighWater)
    (hfin : sf.fin = true) (hoff : sf.offset = s.sendNextOffset) :
    Finishing (sf :: out) { s with
      sendFinSent := true
      sendState := if s.sendState = .send then .dataSent else s.sendState } := by
  have hframes (hout : out = []) : ∀ f ∈ sf :: out, f.fin = true ∧ f.offset = s.sendHighWater := by
    intro f hf
    rw [hout] at hf
    rw [List.mem_singleton.1 hf]
    exact ⟨hfin, hoff.trans hnext⟩
  cases h with
  | opening h =>
    have hsend : s.sendState = .send :=
      h.state.resolve_left fun hready => by cases hqueued.symm.trans hready.2.1
    have hbase : s.sendBufBaseOffset = s.sendHighWater :=
      (h.last hqueued).resolve_left (by omega)
    have hout : out = [] := List.eq_nil_iff_forall_not_mem.2 fun f hf =>
      (h.frames f hf).2 (hacc.no_bytes (.inl hbase) f hf)
    refine .alone ⟨⟨.inl (if_pos hsend), hqueued, hnext, ?_⟩, hbase, hframes hout, ?_, fun _ => rfl⟩
    · dsimp only
      rw [if_pos hsend, h.finAcked]
      exact ⟨nofun, fun hn => nomatch hn.2⟩
    · rw [hout, h.finAcked]
      rfl
  | withLastByte h =>
    have hcovered := h.finSent.2 (by rw [hlost]; rfl)
    cases hsent.symm.trans hcovered
  | alone h =>
    have hout : out = [] := List.eq_nil_of_length_eq_zero (by rw [h.one, hsent]; rfl)
    have hacked : s.sendFinAcked = false :=
      Bool.eq_false_iff.2 fun ha => by cases hsent.symm.trans (h.finSent ha)
    have hstate : (if s.sendState = .send then .dataSent else s.sendState) = s.sendState :=
      if_neg (by rcases h.state with hst | hst <;> rw [hst] <;> nofun)
    rw [hstate]
    refine .alone { h with frames := hframes hout, one := ?_, finSent := fun _ => rfl }
    rw [hout, hacked]
    rfl

/-- A retransmission carries the FIN exactly if it carries the last byte. -/
theorem Finishing.pullLost (hlost : s.lostRanges = r :: rest) (htake : 0 < take) (hle : take ≤ r.2)
    (hfin : sf.fin = (s.sendFinQueued && r.1 + take == s.sendHighWater))
    (hoff : sf.offset = r.1) (hlen : sf.data.length = take) :
    Finishing (sf :: out) { s with
      sendFinSent := s.sendFinSent || sf.fin
      lostRanges := if take = r.2 then rest else (r.1 + take, r.2 - take) :: rest } := by
  have hdata : sf.data ≠ [] := List.length_pos_iff.1 (hlen ▸ htake)
  obtain ⟨hbase, hend⟩ := hacc.lost_bounds (r := r) (hlost ▸ List.mem_cons_self)
  have hnext := hacc.next_le
  cases h with
  | opening h =>
    have hsend : s.sendState = .send := h.state.resolve_left fun hready => by
      have := hacc.ready hready.1
      omega
    have hno : sf.fin = false := by
      rw [hfin]
      refine Bool.and_eq_false_imp.2 fun hq => beq_eq_false_iff_ne.2 ?_
      rcases h.last hq with hlast | hlast <;> omega
    rw [hno, Bool.or_false]
    exact .opening { h with
      state := .inr hsend, frames := List.forall_mem_cons.2 ⟨⟨hno, hdata⟩, h.frames⟩ }
  | withLastByte h =>
    have hiff : sf.fin = true ↔ r.1 + take = s.sendHighWater := by
      rw [hfin, h.queued, Bool.true_and, beq_iff_eq]
    refine .withLastByte { h with
      frames := List.forall_mem_cons.2 ⟨⟨by rw [hiff, hoff, hlen], hdata⟩, h.frames⟩, finSent := ?_ }
    -- the last byte leaves `lost_ranges_` exactly if the chunk reaches it
    have hserve : (if Within (r.1, take) (s.sendHighWater - 1) then 1 else 0) +
        count (if take = r.2 then rest else (r.1 + take, r.2 - take) :: rest)
          (s.sendHighWater - 1) = count s.lostRanges (s.sendHighWater - 1) := by
      rw [← count_cons, hlost]
      exact count_serve hle rest _
    have hnext := h.next
    have howner := hacc.owner (s.sendHighWater - 1)
    rw [owners, if_pos (show s.sendHighWater - 1 < s.sendNextOffset by omega)] at howner
    have hlast : Within (r.1, take) (s.sendHighWater - 1) ↔ r.1 + take = s.sendHighWater := by
      unfold Within
      omega
    dsimp only
    rw [Bool.or_eq_true, h.finSent, hiff, ← hlast]
    split at hserve
    next hin => exact iff_of_true (.inr hin) (by omega)
    next hout => rw [← hserve, Nat.zero_add, or_iff_left hout]
  | alone h =>
    have hnone := h.base
    omega

/-- The chunk with the last fresh bytes carries the FIN. -/
theorem Finishing.pullFresh
    (hlost : s.lostRanges = []) (htake : take ≠ 0) (hend : s.sendNextOffset + take ≤ s.sendHighWater)
    (hfin : sf.fin = (s.sendFinQueued && s.sendNextOffset + take == s.sendHighWater &&
      !s.sendFinSent))
    (hoff : sf.offset = s.sendNextOffset) (hlen : sf.data.length = take) :
    Finishing (sf :: out) { s with
      sendNextOffset := s.sendNextOffset + take
      sendFinSent := s.sendFinSent || sf.fin
      sendState := if sf.fin && s.sendState == .send then .dataSent else s.sendState } := by
  have hdata : sf.data ≠ [] := List.length_pos_iff.1 (by omega)
  cases h with
  | opening h =>
    have hsend : s.sendState = .send := h.state.resolve_left fun hready => by
      have := hacc.ready hready.1
      omega
    rw [h.finSent, Bool.not_false, Bool.and_true] at hfin
    rw [h.finSent, hsend]
    cases hf : sf.fin with
    | false =>
      refine .opening ⟨.inr rfl, rfl, h.finAcked,
        List.forall_mem_cons.2 ⟨⟨hf, hdata⟩, h.frames⟩, fun hq => .inl ?_⟩
      rw [hf, show s.sendFinQueued = true from hq] at hfin
      have hne := beq_eq_false_iff_ne.1 hfin.symm
      exact Nat.lt_of_le_of_ne hend hne
    | true =>
      rw [hf] at hfin
      obtain ⟨hq, hhigh⟩ := (Bool.and_eq_true _ _).mp hfin.symm
      have hhigh : s.sendNextOffset + take = s.sendHighWater := eq_of_beq hhigh
      have hold : ∀ f ∈ out, f.offset + f.data.length ≤ s.sendNextOffset := fun f hf =>
        (hacc.mem_bounds hf fun hn => (h.frames f hf).2 (List.eq_nil_of_length_eq_zero hn)).2
      refine .withLastByte ⟨⟨.inl rfl, hq, hhigh, ?_⟩, by show 0 < s.sendHighWater; omega,
        List.forall_mem_cons.2 ⟨⟨?_, hdata⟩, fun f hf => ⟨?_, (h.frames f hf).2⟩⟩, ?_, ?_⟩
      · dsimp only
        rw [h.finAcked]
        exact ⟨nofun, fun hn => nomatch hn.2⟩
      · exact iff_of_true hf (by rw [hoff, hlen, hhigh])
      · have hlow := hold f hf
        exact iff_of_false (by rw [(h.frames f hf).1]; nofun) (by show ¬ _ = s.sendHighWater; omega)
      · exact iff_of_true rfl (by rw [hlost]; rfl)
      · refine iff_of_false (by rw [h.finAcked]; nofun) fun hacked => ?_
        have hlast := hacc.acked_lt (i := s.sendHighWater - 1) hacked
        omega
  | withLastByte h | alone h =>
    have := h.next
    omega

/-- **`pull_send`** keeps the FIN with the last byte, or alone. -/
theorem Finishing.pullSend {id : Nat}
    (hstep : PullStep s maxBytes maxFresh p s') (hacc' : s'.Accounted written (p.frames id ++ out)) :
    Finishing (p.frames id ++ out) s' := by
  cases hstep with
  | nothing => exact h
  | finOnly hlost hqueued hsent hnext => exact h.pullFin hacc hlost hqueued hsent hnext rfl rfl
  | @lost r rest data hmax hlost hlen =>
    have hpos := hacc.lost_pos r (hlost ▸ List.mem_cons_self)
    have htake : 0 < min maxBytes r.2 := by omega
    rw [Pull.frames, if_neg fun hn => htake.ne' hn.1]
    exact h.pullLost hacc hlost htake (Nat.min_le_right ..) rfl rfl hlen
  | fresh htake hlost hlen =>
    rw [Pull.frames, if_neg fun hn => htake hn.1]
    exact h.pullFresh hacc hlost htake hacc'.next_le rfl rfl hlen

end

/-! ## Acknowledging and losing -/

/-- A frame that owns the last byte carries the FIN, and no other does. -/
theorem WithLastByte.carries (h : WithLastByte (sf :: out) s)
    (hacc : s.Accounted written (sf :: out)) :
    (Within sf.range (s.sendHighWater - 1) ↔ sf.fin = true) ∧ 0 < sf.data.length ∧
      s.sendBufBaseOffset ≤ sf.offset ∧ sf.offset + sf.data.length ≤ s.sendNextOffset := by
  obtain ⟨hfin, hdata⟩ := h.frames sf List.mem_cons_self
  have hpos := List.length_pos_iff.2 hdata
  have hbounds := hacc.cons_bounds hpos.ne'
  have hnext := h.next
  refine ⟨?_, hpos, hbounds⟩
  rw [hfin]
  unfold Within StreamFrame.range
  omega

theorem Alone.carries (h : Alone (sf :: out) s) :
    s.sendFinSent = true ∧ s.sendFinAcked = false ∧ out = [] := by
  have hone := h.one
  rw [List.length_cons] at hone
  split at hone
  next hf =>
    simp only [Bool.and_eq_true, Bool.not_eq_true'] at hf
    exact ⟨hf.1, hf.2, List.eq_nil_of_length_eq_zero (by omega)⟩
  next => omega

/-- The inference of the code is right: a frame that reaches the end while the FIN is out carries
the FIN, and no other does. -/
theorem Finishing.fin_eq (h : Finishing (sf :: out) s) (hacc : s.Accounted written (sf :: out)) :
    (s.sendFinSent && decide (s.sendHighWater ≤ sf.offset + sf.data.length)) = sf.fin := by
  have hmem : sf ∈ sf :: out := List.mem_cons_self
  cases h with
  | opening h => rw [h.finSent, (h.frames sf hmem).1, Bool.false_and]
  | withLastByte h =>
    obtain ⟨hlast, hpos, -, hend⟩ := h.carries hacc
    have hfin := (h.frames sf hmem).1
    have hnext := h.next
    cases hf : sf.fin with
    | false =>
      have hne := mt hfin.2 (by rw [hf]; nofun)
      rw [decide_eq_false (by omega), Bool.and_false]
    | true =>
      -- the frame owns the last byte, so it is not lost
      have hhigh := hfin.1 hf
      have howner := hacc.owner (s.sendHighWater - 1)
      rw [owners, List.map_cons, count_cons, if_pos (hlast.2 hf)] at howner
      have hsent := h.finSent.2 (by split at howner <;> split at howner <;> omega)
      rw [hsent, decide_eq_true (by omega)]
      rfl
  | alone h =>
    obtain ⟨hfin, hoff⟩ := h.frames sf hmem
    rw [h.carries.1, hfin, decide_eq_true (by omega)]
    rfl

structure AckStep (s : Stream) (sf : StreamFrame) (s' : Stream) : Prop where
  next : s'.sendNextOffset = s.sendNextOffset
  highWater : s'.sendHighWater = s.sendHighWater
  queued : s'.sendFinQueued = s.sendFinQueued
  finSent : s'.sendFinSent = s.sendFinSent
  lost : s'.lostRanges = s.lostRanges
  acked : ∀ i, s'.Acked i ↔ s.Acked i ∨ Within sf.range i
  finAcked : s'.sendFinAcked = (s.sendFinAcked || sf.fin)
  state : s'.sendState = if s.sendState = .dataSent ∧ s'.sendBuf.length = s'.sendBufHead ∧
    s'.sendFinAcked = true then .dataRecvd else s.sendState

theorem tryAdvance_eq (s : Stream) : s.tryAdvanceSendStateAfterAck = { s with
    sendState := if s.sendState = .dataSent ∧ s.sendBuf.length = s.sendBufHead ∧
      s.sendFinAcked = true then .dataRecvd else s.sendState } := by
  unfold tryAdvanceSendStateAfterAck
  split <;> rfl

theorem ite_reaches (sent : Bool) (end_ highWater : Nat) (a b : α) :
    (if sent = true ∧ end_ ≥ highWater then a else b) =
      if (sent && decide (highWater ≤ end_)) = true then a else b := by
  simp only [Bool.and_eq_true, decide_eq_true_eq, ge_iff_le]

theorem setFinAcked_eq (s : Stream) (end_ : Nat) :
    (if s.sendFinSent = true ∧ end_ ≥ s.sendHighWater then { s with sendFinAcked := true } else s) =
      { s with sendFinAcked :=
          s.sendFinAcked || (s.sendFinSent && decide (s.sendHighWater ≤ end_)) } := by
  rw [ite_reaches]
  cases s.sendFinSent && decide (s.sendHighWater ≤ end_) with
  | true => rw [Bool.or_true]; rfl
  | false => rw [Bool.or_false]; rfl

theorem onAcked_step
    (hfin : (s.sendFinSent && decide (s.sendHighWater ≤ sf.offset + sf.data.length)) = sf.fin)
    (hempty : sf.data.length = 0 → sf.fin = true)
    (h : s.onAcked sf.offset sf.data.length = some s') : AckStep s sf s' := by
  unfold Stream.onAcked at h
  split at h
  next hlen =>
    have hf := hempty hlen
    have hsent : s.sendFinSent = true := by
      rw [hf] at hfin
      exact ((Bool.and_eq_true _ _).mp hfin).1
    rw [if_pos hsent, tryAdvance_eq] at h
    cases h
    refine ⟨rfl, rfl, rfl, rfl, rfl, fun i => (or_iff_left ?_).symm, ?_, rfl⟩
    · rw [StreamFrame.range, hlen]
      exact not_within_zero sf.offset i
    · rw [hf, Bool.or_true]
  next hlen =>
    obtain ⟨base', head', rest, heq, -, -, -, -, hcount⟩ :=
      popAcked_spec s.sendBufBaseOffset s.sendBufHead
        ((s.ackedRanges ++ [(sf.offset, sf.data.length)]).insertionSort rangeLe)
    dsimp only at h
    rw [heq] at h
    obtain ⟨t, ht, rfl⟩ := Option.map_eq_some_iff.1 h
    have hacked (i : Nat) : i < base' ∨ Covers rest i ↔ s.Acked i ∨ Within sf.range i := by
      have hi := hcount i
      rw [count_perm (List.perm_insertionSort rangeLe _), count_append, count_cons, count_nil] at hi
      rw [acked_iff, covers_iff_count_pos]
      change _ ↔ _ ∨ Within (sf.offset, sf.data.length) i
      by_cases hin : Within (sf.offset, sf.data.length) i
      · rw [if_pos hin] at hi
        refine iff_of_true ?_ (.inr hin)
        split at hi <;> omega
      · rw [if_neg hin] at hi
        rw [or_iff_left hin]
        split at hi <;> omega
    obtain ⟨buf, head, rfl⟩ := compact_eq ht
    rw [setFinAcked_eq, tryAdvance_eq]
    exact ⟨rfl, rfl, rfl, rfl, rfl, hacked, congrArg (s.sendFinAcked || ·) hfin, rfl⟩

theorem Confirmed.onAcked (hc : Confirmed finWritten acked s) (h : AckStep s sf s') :
    Confirmed finWritten (sf :: acked) s' := by
  refine ⟨h.queued.trans hc.queued, fun i => ?_, ?_⟩
  · rw [h.acked, hc.bytes, List.map_cons, covers_cons, or_comm]
  · rw [h.finAcked, Bool.or_eq_true, hc.fin, List.exists_mem_cons_iff, or_comm]

/-- **`on_acked`** keeps track of the FIN. -/
theorem Finishing.onAcked (h : Finishing (sf :: out) s) (hacc : s.Accounted written (sf :: out))
    (hacc' : s'.Accounted written out) (hstep : AckStep s sf s') : Finishing out s' := by
  have hmem : sf ∈ sf :: out := List.mem_cons_self
  -- the live bytes are gone exactly if the base has reached the end
  have hempty : s'.sendBuf.length = s'.sendBufHead ↔ s'.sendBufBaseOffset = s'.sendHighWater := by
    have hlive := hacc'.live_end
    have hhead := hacc'.head_le
    omega
  have hsub {f : StreamFrame} (hf : f ∈ out) : f ∈ sf :: out := List.mem_cons_of_mem _ hf
  cases h with
  | opening h =>
    obtain ⟨hfin, hdata⟩ := h.frames sf hmem
    have hsend : s.sendState = .send := h.state.resolve_left fun hready => by cases hready.2.2
    have hbounds := hacc.cons_bounds (List.length_pos_iff.2 hdata).ne'
    have hpos := List.length_pos_iff.2 hdata
    have hstate := hstep.state
    rw [hsend] at hstate
    have hacked := hstep.finAcked
    rw [h.finAcked, hfin] at hacked
    refine .opening ⟨.inr hstate, hstep.finSent.trans h.finSent, hacked,
      fun f hf => h.frames f (hsub hf), fun hq => .inl ?_⟩
    rw [hstep.queued] at hq
    rw [hstep.next, hstep.highWater]
    have hnext := hacc.next_le
    exact (h.last hq).resolve_right (by omega)
  | withLastByte h =>
    obtain ⟨hlast, hpos, hbounds⟩ := h.carries hacc
    have hnext := h.next
    have hsent : s.sendState = .dataSent := h.state.resolve_right fun hd => by
      have := (h.done.1 hd).1
      omega
    have hstate := hstep.state
    simp only [hsent, hempty, true_and] at hstate
    refine .withLastByte ⟨⟨?_, hstep.queued.trans h.queued, ?_, ?_⟩, hstep.highWater ▸ h.pos,
      fun f hf => hstep.highWater ▸ h.frames f (hsub hf), ?_, ?_⟩
    · rw [hstate]
      split
      · exact .inr rfl
      · exact .inl rfl
    · rw [hstep.next, hstep.highWater, hnext]
    · rw [hstate]
      split
      next hd => exact iff_of_true rfl hd
      next hd => exact iff_of_false nofun hd
    · rw [hstep.finSent, hstep.lost, hstep.highWater]
      exact h.finSent
    · rw [hstep.finAcked, hstep.acked, hstep.highWater, Bool.or_eq_true, h.finAcked, hlast]
  | alone h =>
    have hflags := h.carries
    have hbase : s'.sendBufBaseOffset = s'.sendHighWater := hacc'.base_of_acked fun i hi => by
      rw [hstep.acked]
      rw [hstep.highWater, ← h.base] at hi
      exact .inl (.inl hi)
    have hsent : s.sendState = .dataSent := h.state.resolve_right fun hd => by
      cases hflags.2.1.symm.trans (h.done.1 hd).2
    have hacked : s'.sendFinAcked = true := by
      rw [hstep.finAcked, (h.frames sf hmem).1, Bool.or_true]
    have hstate : s'.sendState = .dataRecvd := by
      rw [hstep.state, if_pos ⟨hsent, hempty.2 hbase, hacked⟩]
    refine .alone ⟨⟨.inr hstate, hstep.queued.trans h.queued, ?_, ?_⟩, hbase, ?_, ?_, ?_⟩
    · rw [hstep.next, hstep.highWater, h.next]
    · exact iff_of_true hstate ⟨hbase, hacked⟩
    · rw [hflags.2.2]
      exact fun _ hf => absurd hf List.not_mem_nil
    · rw [hflags.2.2, hacked, Bool.not_true, Bool.and_false]
      rfl
    · intro
      exact hstep.finSent.trans hflags.1

theorem setFinSent_eq (s : Stream) (end_ : Nat) :
    (if s.sendFinSent = true ∧ end_ ≥ s.sendHighWater then { s with sendFinSent := false } else s) =
      { s with sendFinSent :=
          s.sendFinSent && !(s.sendFinSent && decide (s.sendHighWater ≤ end_)) } := by
  rw [ite_reaches]
  cases s.sendFinSent && decide (s.sendHighWater ≤ end_) with
  | true => rw [Bool.not_true, Bool.and_false]; rfl
  | false => rw [Bool.not_false, Bool.and_true]; rfl

theorem onLost_eq (s : Stream) (off len : Nat) : s.onLost off len = { s with
    lostRanges := if len > 0 then s.lostRanges ++ [(off, len)] else s.lostRanges
    sendFinSent := s.sendFinSent && !(s.sendFinSent && decide (s.sendHighWater ≤ off + len)) } := by
  unfold Stream.onLost
  rw [setFinSent_eq]
  split <;> rfl

/-- **`on_lost`** takes the FIN back exactly if the frame carried it. -/
theorem Finishing.onLost (h : Finishing (sf :: out) s) (hacc : s.Accounted written (sf :: out)) :
    Finishing out (s.onLost sf.offset sf.data.length) := by
  have hmem : sf ∈ sf :: out := List.mem_cons_self
  have hsub {f : StreamFrame} (hf : f ∈ out) : f ∈ sf :: out := List.mem_cons_of_mem _ hf
  rw [onLost_eq, h.fin_eq hacc]
  cases h with
  | opening h =>
    have hsend : s.sendState = .send := h.state.resolve_left fun hready => by cases hready.2.2
    refine .opening { h with
      state := .inr hsend, finSent := ?_, frames := fun f hf => h.frames f (hsub hf) }
    rw [h.finSent, Bool.false_and]
  | withLastByte h =>
    obtain ⟨hlast, hpos, -⟩ := h.carries hacc
    rw [StreamFrame.range] at hlast
    refine .withLastByte { h with frames := fun f hf => h.frames f (hsub hf), finSent := ?_ }
    rw [if_pos hpos, count_append, count_cons, Bool.and_eq_true, h.finSent]
    cases hf : sf.fin with
    | true =>
      rw [if_pos (hlast.2 hf)]
      exact iff_of_false (fun hn => by cases hn.2) (by omega)
    | false =>
      rw [if_neg fun hw => by cases hf.symm.trans (hlast.1 hw)]
      simp
  | alone h =>
    obtain ⟨-, hacked, rfl⟩ := h.carries
    refine .alone { h with frames := List.forall_mem_nil _, one := ?_, finSent := fun ha => ?_ }
    · rw [(h.frames sf hmem).1, Bool.not_true, Bool.and_false]
      rfl
    · cases hacked.symm.trans ha

theorem Confirmed.onLost (h : Confirmed finWritten acked s) (off len : Nat) :
    Confirmed finWritten acked (s.onLost off len) := by
  rw [onLost_eq]
  exact { h with }

/-! ## What the states say -/

/-- A stream is in state DataRecvd exactly if its FIN was written and every byte and the FIN were
acknowledged. -/
theorem Finishing.dataRecvd_iff (h : Finishing out s) (hacc : s.Accounted written out)
    (hc : Confirmed finWritten acked s) : s.sendState = .dataRecvd ↔ finWritten = true ∧
      (∀ i < written.length, Covers (acked.map StreamFrame.range) i) ∧
      ∃ sf ∈ acked, sf.fin = true := by
  rw [← hc.fin, ← hc.queued, ← hacc.highWater]
  have hclosed (hout : FinOut s) : s.sendState = .dataRecvd ↔ s.sendFinQueued = true ∧
      (∀ i < s.sendHighWater, Covers (acked.map StreamFrame.range) i) ∧
      s.sendFinAcked = true := by
    rw [hout.done]
    constructor
    · rintro ⟨hbase, hfin⟩
      exact ⟨hout.queued, fun i hi => (hc.bytes i).1 (.inl (hbase ▸ hi)), hfin⟩
    · rintro ⟨-, hall, hfin⟩
      exact ⟨hacc.base_of_acked fun i hi => (hc.bytes i).2 (hall i hi), hfin⟩
  cases h with
  | opening h =>
    refine iff_of_false (fun hd => ?_) fun hn => by cases h.finAcked.symm.trans hn.2.2
    rcases h.state with hready | hsend
    · cases hd.symm.trans hready.1
    · cases hd.symm.trans hsend
  | withLastByte h | alone h => exact hclosed h.toFinOut

end

end Stream

end Spaznet.Quic
