import Spaznet.Lib.Ranges
import Spaznet.Quic.Frame
import Spaznet.Quic.Stream.Basic

/-!
# Who owns the bytes of a stream

Every byte that a stream has handed to the connection is acknowledged, or waits in `lost_ranges_`,
or travels in a STREAM frame the connection keeps a record of. `Accounted written out s` says so for
a stream on which `written` was written and whose frames `out` are outstanding. It holds for a new
stream and is kept by `write`, `pull_send`, `on_acked` and `on_lost`; under it no access leaves the
send buffer.
-/

namespace Spaznet.Quic

open Ranges

def StreamFrame.range (f : StreamFrame) : Nat × Nat := (f.offset, f.data.length)

namespace Stream

/-- Blank out what receiving and reading may change. -/
def forgetReceived (s : Stream) : Stream :=
  { s with
    recvChunks := [], recvReadOffset := 0, recvHighWater := 0, recvFinalSize := none
    resetError := none, recvState := .recv }

theorem forgetReceived_deliver (s : Stream) (offset : Nat) (data : Bytes) (fin : Bool) :
    (s.deliver offset data fin).2.forgetReceived = s.forgetReceived := by
  unfold deliver
  dsimp only
  repeat' split
  all_goals rfl

theorem forgetReceived_resetRecvd (s : Stream) (finalSize appError : Nat) :
    (s.resetRecvd finalSize appError).2.forgetReceived = s.forgetReceived := by
  unfold resetRecvd
  repeat' split
  all_goals rfl

theorem forgetReceived_readContiguous (s : Stream) :
    s.readContiguous.2.forgetReceived = s.forgetReceived := by
  unfold readContiguous
  repeat' split
  all_goals rfl

/-- Blank out the receive side, the id and the limits. -/
def outbound (s : Stream) : Stream :=
  { s with
    id := 0, recvLimit := 0, sendLimit := 0, recvChunks := [], recvReadOffset := 0
    recvHighWater := 0, recvFinalSize := none, resetError := none, recvState := .recv }

theorem outbound_of_forgetReceived {s s' : Stream} (h : s'.forgetReceived = s.forgetReceived) :
    s'.outbound = s.outbound :=
  (congrArg outbound h :)

/-- In how many places an offset is kept: below the base, in `acked_ranges_`, in `lost_ranges_`, and
in the outstanding frames. -/
def owners (s : Stream) (out : List StreamFrame) (i : Nat) : Nat :=
  (if i < s.sendBufBaseOffset then 1 else 0) + count s.ackedRanges i + count s.lostRanges i +
    count (out.map StreamFrame.range) i

structure Accounted (written : Bytes) (out : List StreamFrame) (s : Stream) : Prop where
  /-- The live part of the buffer is what was written from the base on. -/
  buffered : s.sendBuf.drop s.sendBufHead = written.drop s.sendBufBaseOffset
  head_le : s.sendBufHead ≤ s.sendBuf.length
  head_le_base : s.sendBufHead ≤ s.sendBufBaseOffset
  next_le : s.sendNextOffset ≤ s.sendHighWater
  highWater : s.sendHighWater = written.length
  highWater_lt : s.sendHighWater < 2 ^ 64
  /-- Each offset that was sent has exactly one owner. -/
  owner : ∀ i, s.owners out i = if i < s.sendNextOffset then 1 else 0
  lost_pos : ∀ r ∈ s.lostRanges, 0 < r.2
  acked_pos : ∀ r ∈ s.ackedRanges, 0 < r.2
  /-- The acknowledged prefix is as long as it can be. -/
  acked_above : ∀ r ∈ s.ackedRanges, s.sendBufBaseOffset < r.1
  /-- The frames carry the bytes that were written. -/
  faithful : ∀ sf ∈ out, (written.drop sf.offset).take sf.data.length = sf.data
  ready : s.sendState = .ready → s.sendHighWater = 0
  finished : s.sendState = .dataRecvd → s.sendBufBaseOffset = s.sendHighWater
  not_reset : s.sendState ≠ .resetSent ∧ s.sendState ≠ .resetRecvd

namespace Accounted

variable {s s' : Stream} {written : Bytes} {out : List StreamFrame}

section
variable (h : Accounted written out s)
include h

theorem congr (heq : s'.outbound = s.outbound) :
    Accounted written out s' := by
  have hs : Accounted written out s.outbound := { h with }
  rw [← heq] at hs
  exact { hs with }

theorem setFin (sent acked : Bool) :
    Accounted written out { s with sendFinSent := sent, sendFinAcked := acked } :=
  { h with }

theorem setState (st : SendState) (hready : st ≠ .ready)
    (hfinished : st = .dataRecvd → s.sendBufBaseOffset = s.sendHighWater)
    (hreset : st ≠ .resetSent ∧ st ≠ .resetRecvd) :
    Accounted written out { s with sendState := st } :=
  { h with ready := fun heq => absurd heq hready, finished := hfinished, not_reset := hreset }

theorem dataSentIf (p : Prop) [Decidable p] :
    Accounted written out { s with sendState := if p then .dataSent else s.sendState } := by
  by_cases hp : p
  · rw [if_pos hp]
    exact h.setState .dataSent nofun nofun ⟨nofun, nofun⟩
  · rw [if_neg hp]
    exact h

/-- Frames may be listed in any order, and those without bytes do not count. -/
theorem of_count
    (hcount : ∀ i, count (out'.map StreamFrame.range) i = count (out.map StreamFrame.range) i)
    (hfaithful : ∀ sf ∈ out', (written.drop sf.offset).take sf.data.length = sf.data) :
    Accounted written out' s :=
  { h with
    owner := fun i => by rw [owners, hcount]; exact h.owner i
    faithful := hfaithful }

theorem perm (hp : out.Perm out') : Accounted written out' s :=
  h.of_count (fun i => count_perm (hp.symm.map _) i) fun sf hsf => h.faithful sf (hp.mem_iff.2 hsf)

theorem base_le : s.sendBufBaseOffset ≤ s.sendNextOffset := by
  by_contra hlt
  have howner := h.owner s.sendNextOffset
  rw [owners, if_pos (Nat.lt_of_not_le hlt), if_neg (Nat.lt_irrefl _)] at howner
  omega

theorem live_end :
    s.sendBufBaseOffset + (s.sendBuf.length - s.sendBufHead) = s.sendHighWater := by
  have hlive := congrArg List.length h.buffered
  rw [List.length_drop, List.length_drop, ← h.highWater] at hlive
  have hbase := h.base_le.trans h.next_le
  omega

/-- An offset with an owner other than the acknowledged prefix lies between the base and the next
offset. -/
theorem bounds
    (hi : 0 < count s.ackedRanges i + count s.lostRanges i + count (out.map StreamFrame.range) i) :
    s.sendBufBaseOffset ≤ i ∧ i < s.sendNextOffset := by
  have howner := h.owner i
  rw [owners] at howner
  split at howner <;> split at howner <;> omega

theorem slice_eq (off take : Nat)
    (hbase : s.sendBufBaseOffset ≤ off) (hend : off + take ≤ s.sendHighWater) :
    s.slice off take = some ((written.drop off).take take) := by
  have hlive := h.live_end
  have hlt := h.highWater_lt
  have hhead := h.head_le
  have hhead' := h.head_le_base
  have hsub : Word64.sub off s.sendBufBaseOffset = off - s.sendBufBaseOffset :=
    Word64.sub_eq (by omega) hbase
  have hadd : Word64.add s.sendBufHead (off - s.sendBufBaseOffset) =
      s.sendBufHead + (off - s.sendBufBaseOffset) := Word64.add_eq (by omega)
  unfold slice
  rw [hsub, hadd]
  rw [if_pos (by omega), ← List.drop_drop, h.buffered, List.drop_drop,
    Nat.add_sub_cancel' hbase]

/-! ## Writing -/

theorem write (hsize : s.writable = true → s.sendHighWater + data.length < 2 ^ 64) :
    Accounted (if s.writable then written ++ data else written) out (s.write data fin) := by
  unfold Stream.write
  cases hw : s.writable with
  | false => exact h
  | true =>
    simp only [Bool.not_true, Bool.false_eq_true, if_false]
    have hbase : s.sendBufBaseOffset ≤ written.length := by
      rw [← h.highWater]
      exact h.base_le.trans h.next_le
    have hlow {off n : Nat} (hn : off + n ≤ written.length) :
        ((written ++ data).drop off).take n = (written.drop off).take n := by
      rw [List.drop_append_of_le_length (by omega), List.take_append_of_le_length (by simp; omega)]
    refine { h with
      buffered := ?_, head_le := ?_, next_le := ?_, highWater := ?_, highWater_lt := hsize hw
      faithful := ?_, ready := ?_, finished := ?_, not_reset := ?_ }
    · show (s.sendBuf ++ data).drop s.sendBufHead = (written ++ data).drop s.sendBufBaseOffset
      rw [List.drop_append_of_le_length h.head_le, h.buffered, List.drop_append_of_le_length hbase]
    · show s.sendBufHead ≤ (s.sendBuf ++ data).length
      rw [List.length_append]
      exact Nat.le_add_right_of_le h.head_le
    · exact Nat.le_add_right_of_le h.next_le
    · show s.sendHighWater + data.length = (written ++ data).length
      rw [h.highWater, List.length_append]
    · intro sf hsf
      have hold := h.faithful sf hsf
      have hlen := congrArg List.length hold
      rw [List.length_take, List.length_drop] at hlen
      by_cases hn : sf.data.length = 0
      · rw [List.eq_nil_of_length_eq_zero hn]
        rfl
      · exact (hlow (by omega)).trans hold
    · intro heq
      split at heq
      · cases heq
      next hne => exact absurd heq hne
    · intro heq
      dsimp only at heq
      split at heq
      · cases heq
      · simp [writable, heq] at hw
    · dsimp only
      split
      · exact ⟨nofun, nofun⟩
      · exact h.not_reset

end

theorem of_blank (h : s.outbound = outbound { id := 0, recvLimit := 0, sendLimit := 0 })
    (hout : ∀ sf ∈ out, sf.data = []) : Accounted [] out s := by
  have hblank : Accounted [] [] { id := 0, recvLimit := 0, sendLimit := 0 } :=
    ⟨rfl, Nat.le_refl 0, Nat.le_refl 0, Nat.le_refl 0, rfl, by decide, fun _ => rfl,
      fun _ hr => absurd hr List.not_mem_nil, fun _ hr => absurd hr List.not_mem_nil,
      fun _ hr => absurd hr List.not_mem_nil, fun _ hsf => absurd hsf List.not_mem_nil,
      fun _ => rfl, nofun, ⟨nofun, nofun⟩⟩
  refine (hblank.congr h).of_count (fun i => ?_) fun sf hsf => by simp [hout sf hsf]
  refine List.countP_eq_zero.2 fun r hr => ?_
  obtain ⟨sf, hsf, rfl⟩ := List.mem_map.1 hr
  simp [StreamFrame.range, hout sf hsf, Within]

end Accounted

/-! ## Sending -/

/-- The STREAM frame the connection makes of a chunk, if it makes one. -/
def Pull.frames (id : Nat) (p : Pull) : List StreamFrame :=
  if p.taken = 0 ∧ !p.fin then []
  else [{ streamId := id, offset := p.offset, hasLength := true, fin := p.fin, data := p.data }]

theorem length_slice {s : Stream} (h : s.slice off take = some data) : data.length = take := by
  unfold slice at h
  dsimp only at h
  split at h
  · cases h
    rw [List.length_take, List.length_drop]
    omega
  · cases h

inductive PullStep (s : Stream) (maxBytes maxFresh : Nat) : Pull → Stream → Prop
  | nothing : PullStep s maxBytes maxFresh {} s
  | finOnly (hlost : s.lostRanges = []) (hqueued : s.sendFinQueued = true)
      (hsent : s.sendFinSent = false) (hnext : s.sendNextOffset = s.sendHighWater) :
      PullStep s maxBytes maxFresh { offset := s.sendNextOffset, fin := true }
        { s with
          sendFinSent := true
          sendState := if s.sendState = .send then .dataSent else s.sendState }
  | lost (hmax : maxBytes ≠ 0) (hlost : s.lostRanges = r :: rest)
      (hlen : data.length = min maxBytes r.2) :
      PullStep s maxBytes maxFresh
        { taken := min maxBytes r.2, offset := r.1, data
          fin := s.sendFinQueued && r.1 + min maxBytes r.2 == s.sendHighWater }
        { s with
          sendFinSent := s.sendFinSent ||
            (s.sendFinQueued && r.1 + min maxBytes r.2 == s.sendHighWater)
          lostRanges := if min maxBytes r.2 = r.2 then rest
            else (r.1 + min maxBytes r.2, r.2 - min maxBytes r.2) :: rest }
  | fresh (htake : take ≠ 0) (hlost : s.lostRanges = []) (hlen : data.length = take)
      (hbudget : take ≤ min maxBytes maxFresh) (hlimit : s.sendNextOffset + take ≤ s.sendLimit) :
      PullStep s maxBytes maxFresh
        { taken := take, offset := s.sendNextOffset, data
          fin := s.sendFinQueued && s.sendNextOffset + take == s.sendHighWater && !s.sendFinSent }
        { s with
          sendNextOffset := s.sendNextOffset + take
          sendFinSent := s.sendFinSent ||
            (s.sendFinQueued && s.sendNextOffset + take == s.sendHighWater && !s.sendFinSent)
          sendState :=
            if (s.sendFinQueued && s.sendNextOffset + take == s.sendHighWater && !s.sendFinSent) &&
              s.sendState == .send then .dataSent else s.sendState }

theorem pullSend_step (h : s.pullSend maxBytes maxFresh = some (p, s')) :
    PullStep s maxBytes maxFresh p s' := by
  have hfin (hlost : s.lostRanges = []) (hf : some s.pullFin = some (p, s')) :
      PullStep s maxBytes maxFresh p s' := by
    unfold pullFin at hf
    split at hf
    next hcond =>
      cases hf
      simp only [Bool.and_eq_true, Bool.not_eq_true', beq_iff_eq] at hcond
      exact .finOnly hlost hcond.1.1 hcond.1.2 hcond.2
    next =>
      cases hf
      exact .nothing
  unfold pullSend at h
  split at h
  · cases h
    exact .nothing
  next hmax =>
    split at h
    next r rest hlost =>
      obtain ⟨data, hd, heq⟩ := Option.map_eq_some_iff.1 h
      cases heq
      exact .lost hmax hlost (length_slice hd)
    next hlost =>
      split at h
      · exact hfin hlost h
      dsimp only at h
      split at h
      · exact hfin hlost h
      next htake =>
        obtain ⟨data, hd, heq⟩ := Option.map_eq_some_iff.1 h
        cases heq
        have hmin : s.freshTake maxBytes maxFresh ≤ min maxBytes maxFresh ∧
            s.freshTake maxBytes maxFresh ≤ s.sendLimit - s.sendNextOffset := by
          unfold freshTake
          omega
        exact .fresh htake hlost (length_slice hd) hmin.1 (by omega)

theorem PullStep.frame (h : PullStep s maxBytes maxFresh p s') :
    s'.sendBufBaseOffset = s.sendBufBaseOffset ∧ s'.sendHighWater = s.sendHighWater ∧
      p.data.length = p.taken := by
  cases h with
  | nothing | finOnly => exact ⟨rfl, rfl, rfl⟩
  | lost _ _ hlen | fresh _ _ hlen => exact ⟨rfl, rfl, hlen⟩

namespace Accounted

variable {s s' : Stream} {written : Bytes} {out : List StreamFrame}

section
variable (h : Accounted written out s)
include h

theorem cons_empty (hsf : sf.data = []) :
    Accounted written (sf :: out) s := by
  refine h.of_count (fun i => ?_) (List.forall_mem_cons.2 ⟨?_, h.faithful⟩)
  · rw [List.map_cons, StreamFrame.range, hsf]
    exact count_cons_zero _ _ i
  · rw [hsf]
    rfl

theorem pullFin (hpull : s.pullFin = (p, s')) (id : Nat) :
    Accounted written (p.frames id ++ out) s' := by
  unfold Stream.pullFin at hpull
  split at hpull
  · cases hpull
    exact ((h.setFin true s.sendFinAcked).dataSentIf _).cons_empty rfl
  · cases hpull
    exact h

theorem lost_bounds (hr : r ∈ s.lostRanges) :
    s.sendBufBaseOffset ≤ r.1 ∧ r.1 + r.2 ≤ s.sendNextOffset := by
  have hpos := h.lost_pos r hr
  have hfirst := h.bounds (i := r.1)
    (by have := count_pos hr (i := r.1) ⟨Nat.le_refl _, by omega⟩; omega)
  have hlast := h.bounds (i := r.1 + r.2 - 1)
    (by have := count_pos hr (i := r.1 + r.2 - 1) ⟨by omega, by omega⟩; omega)
  omega

theorem pullLost (hlost : s.lostRanges = r :: rest)
    (hmax : maxBytes ≠ 0) (id : Nat) : ∃ p s', s.pullLost maxBytes r rest = some (p, s') ∧
      Accounted written (p.frames id ++ out) s' := by
  have hpos : 0 < r.2 := h.lost_pos r (hlost ▸ List.mem_cons_self)
  obtain ⟨hbase, hend⟩ := h.lost_bounds (r := r) (hlost ▸ List.mem_cons_self)
  have hnext := h.next_le
  have hslice := h.slice_eq r.1 (min maxBytes r.2) hbase (by omega)
  refine ⟨_, _, by rw [Stream.pullLost, hslice]; rfl, ?_⟩
  have htake : min maxBytes r.2 ≠ 0 := by omega
  have hlen := length_slice hslice
  rw [Pull.frames, if_neg (fun hn => htake hn.1)]
  refine { h with
    owner := fun i => ?_, lost_pos := fun q hq => ?_
    faithful := List.forall_mem_cons.2 ⟨?_, h.faithful⟩ }
  · have howner := h.owner i
    have hserve : count ((r.1, min maxBytes r.2) :: _) i = count (r :: rest) i :=
      count_serve (Nat.min_le_right maxBytes r.2) rest i
    rw [owners, hlost, ← hserve, count_cons] at howner
    rw [owners, List.cons_append, List.map_cons, StreamFrame.range, hlen, count_cons]
    dsimp only [List.nil_append]
    omega
  · dsimp only at hq
    split at hq
    · exact h.lost_pos q (hlost ▸ List.mem_cons_of_mem _ hq)
    rcases List.mem_cons.1 hq with rfl | hq
    · dsimp only
      omega
    · exact h.lost_pos q (hlost ▸ List.mem_cons_of_mem _ hq)
  · show (written.drop r.1).take _ = _
    rw [hlen]

theorem pullFresh (htake : take ≠ 0)
    (hend : s.sendNextOffset + take ≤ s.sendHighWater) (id : Nat) :
    ∃ p s', s.pullFresh take = some (p, s') ∧ Accounted written (p.frames id ++ out) s' := by
  have hslice := h.slice_eq s.sendNextOffset take h.base_le hend
  refine ⟨_, _, by rw [Stream.pullFresh, hslice]; rfl, ?_⟩
  have hlen := length_slice hslice
  rw [Pull.frames, if_neg (fun hn => htake hn.1)]
  have hstate := h.dataSentIf
    ((s.sendFinQueued && s.sendNextOffset + take == s.sendHighWater && !s.sendFinSent) &&
      s.sendState == .send)
  refine { hstate with
    next_le := hend, owner := fun i => ?_, faithful := List.forall_mem_cons.2 ⟨?_, h.faithful⟩ }
  · have howner := h.owner i
    rw [owners] at howner
    rw [← below_add_within, owners, List.cons_append, List.map_cons, StreamFrame.range,
      hlen, count_cons]
    dsimp only [List.nil_append]
    omega
  · show (written.drop s.sendNextOffset).take _ = _
    rw [hlen]

theorem freshTake_le (maxBytes maxFresh : Nat) :
    s.sendNextOffset + s.freshTake maxBytes maxFresh ≤ s.sendHighWater := by
  have hnext := h.next_le
  have hsub : Word64.sub s.sendHighWater s.sendNextOffset = s.sendHighWater - s.sendNextOffset :=
    Word64.sub_eq h.highWater_lt hnext
  unfold freshTake
  omega

/-- **`pull_send`** stays inside the buffer, and what it hands out becomes an outstanding frame. -/
theorem pullSend (maxBytes maxFresh id : Nat) :
    ∃ p s', s.pullSend maxBytes maxFresh = some (p, s') ∧
      Accounted written (p.frames id ++ out) s' := by
  have hfin : ∃ p s', some s.pullFin = some (p, s') ∧ Accounted written (p.frames id ++ out) s' :=
    ⟨_, _, rfl, h.pullFin rfl id⟩
  unfold Stream.pullSend
  split
  · exact ⟨{}, s, rfl, h⟩
  next hmax =>
    split
    next r rest hlost => exact h.pullLost hlost hmax id
    next =>
      split
      · exact hfin
      dsimp only
      split
      · exact hfin
      next htake => exact h.pullFresh htake (h.freshTake_le maxBytes maxFresh) id

theorem mem_bounds (hmem : sf ∈ out) (hsf : sf.data.length ≠ 0) : s.sendBufBaseOffset ≤ sf.offset ∧
      sf.offset + sf.data.length ≤ s.sendNextOffset := by
  have hmem : sf.range ∈ out.map StreamFrame.range := List.mem_map_of_mem hmem
  have hfirst := count_pos (i := sf.offset) hmem ⟨Nat.le_refl _, by simp [StreamFrame.range]; omega⟩
  have hlast := count_pos (i := sf.offset + sf.data.length - 1) hmem
    ⟨by simp [StreamFrame.range]; omega, by simp [StreamFrame.range]; omega⟩
  have hfirst := h.bounds (i := sf.offset) (by omega)
  have hlast := h.bounds (i := sf.offset + sf.data.length - 1) (by omega)
  omega

end

theorem cons_bounds (h : Accounted written (sf :: out) s) (hsf : sf.data.length ≠ 0) :
    s.sendBufBaseOffset ≤ sf.offset ∧
      sf.offset + sf.data.length ≤ s.sendNextOffset :=
  h.mem_bounds (List.mem_cons_self ..) hsf

/-- A stream that has sent nothing, or all of whose bytes are acknowledged, has no bytes out. -/
theorem no_bytes (h : Accounted written out s)
    (hdone : s.sendBufBaseOffset = s.sendHighWater ∨ s.sendHighWater = 0) :
    ∀ sf ∈ out, sf.data = [] := by
  intro sf hsf
  by_contra hne
  have hbounds := h.mem_bounds hsf fun hn => hne (List.eq_nil_of_length_eq_zero hn)
  have hpos := List.length_pos_iff.2 hne
  have hnext := h.next_le
  omega

theorem of_cons_empty (h : Accounted written (sf :: out) s) (hsf : sf.data.length = 0) :
    Accounted written out s := by
  refine h.of_count (fun i => ?_) fun sf' hsf' => h.faithful sf' (List.mem_cons_of_mem _ hsf')
  rw [List.map_cons, StreamFrame.range, hsf]
  exact (count_cons_zero _ _ i).symm

/-- **`on_lost`** takes over the bytes of a frame. -/
theorem onLost (h : Accounted written (sf :: out) s) :
    Accounted written out (s.onLost sf.offset sf.data.length) := by
  have hreset {s' : Stream} (h' : Accounted written out s') : Accounted written out
      (if s'.sendFinSent ∧ sf.offset + sf.data.length ≥ s'.sendHighWater then
        { s' with sendFinSent := false } else s') := by
    split
    · exact h'.setFin false s'.sendFinAcked
    · exact h'
  unfold Stream.onLost
  by_cases hsf : sf.data.length = 0
  · rw [hsf, if_neg (Nat.lt_irrefl 0), ← hsf]
    exact hreset (h.of_cons_empty hsf)
  rw [if_pos (Nat.pos_of_ne_zero hsf)]
  refine hreset { h with
    owner := fun i => ?_
    lost_pos := List.forall_mem_append.2
      ⟨h.lost_pos, List.forall_mem_singleton.2 (Nat.pos_of_ne_zero hsf)⟩
    faithful := fun sf' hsf' => h.faithful sf' (List.mem_cons_of_mem _ hsf') }
  have howner := h.owner i
  rw [owners, List.map_cons, StreamFrame.range, count_cons] at howner
  rw [owners, count_append, count_cons, count_nil]
  dsimp only
  omega

end Accounted

/-! ## Acknowledging -/

instance : Std.Total rangeLe := ⟨fun a b => by unfold rangeLe; omega⟩

instance : IsTrans (Nat × Nat) rangeLe := ⟨fun a b c => by unfold rangeLe; omega⟩

/-- The loop over the front of `acked_ranges_` moves offsets from the ranges into the prefix, until
no range starts at the base. -/
theorem popAcked_spec (base head : Nat) (rs : List (Nat × Nat)) : ∃ base' head' rest,
    popAcked base head rs = (base', head', rest) ∧ base ≤ base' ∧
      head' + base = head + base' ∧ rest <:+ rs ∧ (∀ r ∈ rest.head?, r.1 ≠ base') ∧
      ∀ i, (if i < base' then 1 else 0) + count rest i =
        (if i < base then 1 else 0) + count rs i := by
  induction rs generalizing base head with
  | nil => exact ⟨base, head, [], rfl, Nat.le_refl _, rfl, List.suffix_rfl, nofun, fun _ => rfl⟩
  | cons r rs ih =>
    unfold popAcked
    split
    next hr =>
      obtain ⟨base', head', rest, heq, hbase, hhead, hsuffix, hstop, hcount⟩ :=
        ih (base + r.2) (head + r.2)
      refine ⟨base', head', rest, heq, by omega, by omega, hsuffix.trans (List.suffix_cons r rs),
        hstop, fun i => ?_⟩
      rw [hcount, count_cons, ← below_add_within, show (base, r.2) = r from hr ▸ rfl, Nat.add_assoc]
    next hr =>
      refine ⟨base, head, r :: rs, rfl, Nat.le_refl _, rfl, List.suffix_rfl, ?_, fun _ => rfl⟩
      intro q hq
      cases hq
      exact hr

theorem compact_eq {s s' : Stream} (h : s.compact = some s') :
    ∃ buf head, s' = { s with sendBuf := buf, sendBufHead := head } := by
  unfold compact at h
  split at h
  · split at h
    · cases h
      exact ⟨_, _, rfl⟩
    · cases h
  · cases h
    exact ⟨_, _, rfl⟩

theorem onAcked_eq {s s' : Stream} (h : s.onAcked offset length = some s') : s' = s ∨
    ∃ buf head base acked fin, s' = tryAdvanceSendStateAfterAck { s with
      sendBuf := buf, sendBufHead := head, sendBufBaseOffset := base, ackedRanges := acked
      sendFinAcked := fin } := by
  unfold onAcked at h
  split at h
  · split at h
    · cases h
      exact .inr ⟨_, _, _, _, _, rfl⟩
    · cases h
      exact .inl rfl
  · obtain ⟨t, ht, rfl⟩ := Option.map_eq_some_iff.1 h
    obtain ⟨buf, head, rfl⟩ := compact_eq ht
    split <;> exact .inr ⟨_, _, _, _, _, rfl⟩

namespace Accounted

variable {s s' : Stream} {written : Bytes} {out : List StreamFrame}

theorem compact (h : Accounted written out s) :
    ∃ s', s.compact = some s' ∧ Accounted written out s' := by
  unfold Stream.compact
  split
  · rw [if_pos h.head_le]
    exact ⟨_, rfl, { h with head_le := Nat.zero_le _, head_le_base := Nat.zero_le _ }⟩
  · exact ⟨s, rfl, h⟩

theorem tryAdvance (h : Accounted written out s) :
    Accounted written out s.tryAdvanceSendStateAfterAck := by
  unfold tryAdvanceSendStateAfterAck
  split
  next hdone =>
    have hlive := h.live_end
    exact h.setState .dataRecvd nofun (fun _ => by omega) ⟨nofun, nofun⟩
  next => exact h

/-- Move the bytes of a frame to the acknowledged ranges and from there to the prefix. -/
theorem advanceBase (h : Accounted written (sf :: out) s) (hsf : sf.data.length ≠ 0) :
    ∃ base' head' rest,
      popAcked s.sendBufBaseOffset s.sendBufHead
        ((s.ackedRanges ++ [sf.range]).insertionSort rangeLe) = (base', head', rest) ∧
      Accounted written out
        { s with sendBufBaseOffset := base', sendBufHead := head', ackedRanges := rest } := by
  obtain ⟨base', head', rest, heq, hbase, hhead, hsuffix, hstop, hcount⟩ :=
    popAcked_spec s.sendBufBaseOffset s.sendBufHead
      ((s.ackedRanges ++ [sf.range]).insertionSort rangeLe)
  have hperm := List.perm_insertionSort rangeLe (s.ackedRanges ++ [sf.range])
  have howner (i : Nat) : (if i < base' then 1 else 0) + count rest i + count s.lostRanges i +
      count (out.map StreamFrame.range) i = if i < s.sendNextOffset then 1 else 0 := by
    have howner := h.owner i
    rw [owners, List.map_cons, count_cons] at howner
    rw [hcount, count_perm hperm, count_append, count_cons, count_nil]
    omega
  have hbelow : base' ≤ s.sendNextOffset := by
    by_contra hlt
    have hnext := howner s.sendNextOffset
    rw [if_pos (Nat.lt_of_not_le hlt), if_neg (Nat.lt_irrefl _)] at hnext
    omega
  have hlive := h.live_end
  have hhead_le := h.head_le
  have hhead_base := h.head_le_base
  have hnext := h.next_le
  have hpos : ∀ r ∈ rest, 0 < r.2 := fun r hr => by
    rcases List.mem_append.1 (hperm.mem_iff.1 (hsuffix.subset hr)) with hr | hr
    · exact h.acked_pos r hr
    · rw [List.mem_singleton.1 hr]
      exact Nat.pos_of_ne_zero hsf
  have hfrom : ∀ r ∈ rest, base' ≤ r.1 := fun r hr => by
    by_contra hlt
    have hr' := count_pos hr (i := r.1) ⟨Nat.le_refl _, by have := hpos r hr; omega⟩
    have htwo := howner r.1
    rw [if_pos (Nat.lt_of_not_le hlt)] at htwo
    split at htwo <;> omega
  refine ⟨base', head', rest, heq, ?_, ?_, ?_, hnext, h.highWater, h.highWater_lt, howner,
    h.lost_pos, hpos, ?_, fun sf' hsf' => h.faithful sf' (List.mem_cons_of_mem _ hsf'), h.ready,
    fun hdone => ?_, h.not_reset⟩
  · have hhead' : head' = s.sendBufHead + (base' - s.sendBufBaseOffset) := by omega
    rw [hhead', ← List.drop_drop, h.buffered, List.drop_drop, Nat.add_sub_cancel' hbase]
  · show head' ≤ s.sendBuf.length
    omega
  · show head' ≤ base'
    omega
  · -- the ranges are sorted, so the first one decides
    intro r hr
    have hsorted := ((s.ackedRanges ++ [sf.range]).pairwise_insertionSort rangeLe).sublist
      hsuffix.sublist
    cases rest with
    | nil => cases hr
    | cons q rest =>
      have hq : base' < q.1 :=
        Nat.lt_of_le_of_ne (hfrom q (List.mem_cons_self)) (hstop q rfl).symm
      rcases List.mem_cons.1 hr with rfl | hr
      · exact hq
      rcases List.rel_of_pairwise_cons hsorted hr with hlt | heq'
      · exact hq.trans hlt
      · exact heq'.1 ▸ hq
  · have hdone := h.finished hdone
    show base' = s.sendHighWater
    omega

/-- **`on_acked`** takes over the bytes of a frame. -/
theorem onAcked (h : Accounted written (sf :: out) s) :
    ∃ s', s.onAcked sf.offset sf.data.length = some s' ∧ Accounted written out s' := by
  unfold Stream.onAcked
  split
  next hsf =>
    have hdrop := h.of_cons_empty hsf
    split
    · exact ⟨_, rfl, (hdrop.setFin s.sendFinSent true).tryAdvance⟩
    · exact ⟨s, rfl, hdrop⟩
  next hsf =>
    obtain ⟨base', head', rest, heq, hbase⟩ := h.advanceBase hsf
    obtain ⟨s', hcompact, hs'⟩ := hbase.compact
    dsimp only
    rw [show (sf.offset, sf.data.length) = sf.range from rfl, heq]
    rw [hcompact]
    refine ⟨_, rfl, Accounted.tryAdvance ?_⟩
    split
    · exact hs'.setFin s'.sendFinSent true
    · exact hs'

end Accounted

end Stream

end Spaznet.Quic
