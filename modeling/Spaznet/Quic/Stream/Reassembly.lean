import Spaznet.Lib.Machine
import Spaznet.Lib.Ranges
import Spaznet.Quic.Stream.Basic

/-!
# What the receive side keeps

The buffered chunks are slices of what the peer sent, apart from each other, and together with the
bytes already read they cover exactly the ranges accepted so far, as long as no accepted frame
starts where a shorter buffered chunk starts: there `emplace` finds its key taken and the longer
data are discarded.
-/

namespace Spaznet.Quic.Stream

open Ranges List Word64

def Buffers (chunks : List (Nat × Bytes)) (i : Nat) : Prop :=
  ∃ c ∈ chunks, Within (c.1, c.2.length) i

@[simp] theorem buffers_nil : ¬ Buffers [] i := by simp [Buffers]

@[simp] theorem buffers_cons : Buffers (c :: chunks) i ↔
    Within (c.1, c.2.length) i ∨ Buffers chunks i := by
  simp [Buffers]

@[simp] theorem buffers_append : Buffers (lo ++ hi) i ↔ Buffers lo i ∨ Buffers hi i := by
  simp [Buffers, or_and_right, exists_or]

/-- A chunk holds a non-empty slice of `S` from `start` on that ends inside the 64-bit range. -/
structure Chunk.Ok (S : Bytes) (start : Nat) (c : Nat × Bytes) : Prop where
  slice : IsSlice S c.1 c.2
  nonempty : 0 < c.2.length
  bounded : c.1 + c.2.length < 2 ^ 64
  le : start ≤ c.1

theorem Chunk.Ok.from_le (h : Chunk.Ok S start c) (hle : mid ≤ c.1) : Chunk.Ok S mid c :=
  ⟨h.slice, h.nonempty, h.bounded, hle⟩

/-- The chunks are well formed and no two of them touch. -/
structure Chunks.Ok (S : Bytes) (start : Nat) (chunks : List (Nat × Bytes)) : Prop where
  each : ∀ c ∈ chunks, Chunk.Ok S start c
  apart : chunks.Pairwise fun a b => a.1 + a.2.length < b.1

namespace Chunks.Ok

theorem nil : Chunks.Ok S start [] := ⟨by simp, .nil⟩

theorem head (h : Chunks.Ok S start (c :: chunks)) : Chunk.Ok S start c := h.each c (by simp)

theorem tail (h : Chunks.Ok S start (c :: chunks)) : Chunks.Ok S start chunks :=
  ⟨fun d hd => h.each d (by simp [hd]), h.apart.tail⟩

theorem from_le (h : Chunks.Ok S start chunks) (hle : ∀ c ∈ chunks, mid ≤ c.1) :
    Chunks.Ok S mid chunks :=
  ⟨fun c hc => (h.each c hc).from_le (hle c hc), h.apart⟩

theorem tail_from (h : Chunks.Ok S start (c :: chunks)) :
    Chunks.Ok S (c.1 + c.2.length + 1) chunks :=
  h.tail.from_le fun _ hd => rel_of_pairwise_cons h.apart hd

theorem cons (hc : Chunk.Ok S start c) (h : Chunks.Ok S (c.1 + c.2.length + 1) chunks) :
    Chunks.Ok S start (c :: chunks) := by
  refine ⟨forall_mem_cons.2 ⟨hc, fun d hd => (h.each d hd).from_le ?_⟩,
    pairwise_cons.2 ⟨fun d hd => (h.each d hd).le, h.apart⟩⟩
  have hle := (h.each d hd).le
  have hstart := hc.le
  omega

theorem append (hlo : Chunks.Ok S start lo) (hhi : Chunks.Ok S mid hi) (hmid : start ≤ mid)
    (hend : ∀ c ∈ lo, c.1 + c.2.length < mid) : Chunks.Ok S start (lo ++ hi) := by
  refine ⟨fun c hc => ?_, pairwise_append.2 ⟨hlo.apart, hhi.apart, fun a ha b hb => ?_⟩⟩
  · rcases mem_append.1 hc with hc | hc
    · exact hlo.each c hc
    · exact (hhi.each c hc).from_le (hmid.trans (hhi.each c hc).le)
  · exact (hend a ha).trans_le (hhi.each b hb).le

theorem left (h : Chunks.Ok S start (lo ++ hi)) : Chunks.Ok S start lo :=
  ⟨fun c hc => h.each c (by simp [hc]), (pairwise_append.1 h.apart).1⟩

theorem right (h : Chunks.Ok S start (lo ++ hi)) : Chunks.Ok S start hi :=
  ⟨fun c hc => h.each c (by simp [hc]), (pairwise_append.1 h.apart).2.1⟩

end Chunks.Ok

/-- What a merge leaves: well-formed chunks from `start` on that cover the new data and the old
chunks, and nothing else. -/
structure Merged (S : Bytes) (start : Nat) (r : Nat × Nat) (chunks merged : List (Nat × Bytes)) :
    Prop where
  ok : Chunks.Ok S start merged
  buffers : ∀ i, Buffers merged i ↔ Within r i ∨ Buffers chunks i

theorem Merged.cons (h : Merged S start r chunks merged)
    (hr : ∀ i, Within r i ↔ Within r' i ∨ Within (c.1, c.2.length) i) :
    Merged S start r' (c :: chunks) merged := by
  refine ⟨h.ok, fun i => ?_⟩
  rw [h.buffers, hr, buffers_cons, or_assoc]

/-- A chunk that reaches to another one is extended by what that one has past its end. -/
theorem Chunk.Ok.extend {e : Nat × Bytes} (hd : Chunk.Ok S start (off, data))
    (he : Chunk.Ok S start' e) (hle : e.1 ≤ off + data.length)
    (hgt : off + data.length < e.1 + e.2.length) :
    Chunk.Ok S off (off, data ++ e.2.drop (off + data.length - e.1)) := by
  have hslice := he.slice.drop (k := off + data.length - e.1) (by omega)
  rw [show e.1 + (off + data.length - e.1) = off + data.length by omega] at hslice
  refine ⟨hd.slice.append hslice, hd.nonempty.trans_le (by simp), ?_, Nat.le_refl _⟩
  have hb := he.bounded
  simp only [length_append, length_drop]
  omega

theorem absorb_merged (hd : Chunk.Ok S start (start, data)) (hl : Chunks.Ok S start chunks) :
    Merged S start (start, data.length) chunks (absorb start data chunks) := by
  induction chunks generalizing data with
  | nil =>
    exact ⟨.cons hd .nil, fun i => by simp [absorb]⟩
  | cons next rest ih =>
    have hn := hl.head
    have hdb := hd.bounded
    have hnb := hn.bounded
    have hns := hn.le
    simp only [absorb, add_eq hdb, add_eq hnb]
    split
    next hle =>
      split
      next hgt =>
        -- The chunk reaches past the data: its tail is appended.
        rw [show next.2.length - (next.1 + next.2.length - (start + data.length)) =
          start + data.length - next.1 by omega]
        refine (ih (hd.extend hn hle hgt) hl.tail).cons fun i => ?_
        simp only [Within, length_append, length_drop]
        omega
      next hgt =>
        refine (ih hd hl.tail).cons fun i => ?_
        simp only [Within]
        omega
    next hlt =>
      refine ⟨.cons hd (hl.from_le fun c hc => ?_), fun i => by simp⟩
      rcases mem_cons.1 hc with rfl | hc
      · exact Nat.lt_of_not_le hlt
      have hlast := rel_of_pairwise_cons hl.apart hc
      simp only at hlt ⊢
      omega

/-- `emplace` and the merge loop keep every byte unless the key is taken by a shorter chunk. -/
theorem emplaceChunk_merged (hd : Chunk.Ok S putOff (putOff, putData))
    (hl : Chunks.Ok S putOff hi)
    (hkey : ∀ c ∈ hi, c.1 = putOff → putData.length ≤ c.2.length) :
    Merged S putOff (putOff, putData.length) hi (emplaceChunk putOff putData hi) := by
  cases hi with
  | nil => exact absorb_merged hd hl
  | cons it rest =>
    rw [emplaceChunk]
    split
    next heq =>
      subst heq
      have hlen := hkey it (by simp) rfl
      refine (absorb_merged hl.head hl.tail).cons fun i => ?_
      simp only [Within]
      omega
    next => exact absorb_merged hd hl

theorem Merged.of_append (hlo : Chunks.Ok S start lo) (hmid : start ≤ mid)
    (hend : ∀ c ∈ lo, c.1 + c.2.length < mid) (h : Merged S mid r hi merged) :
    Merged S start r (lo ++ hi) (lo ++ merged) := by
  refine ⟨hlo.append h.ok hmid hend, fun i => ?_⟩
  rw [buffers_append, buffers_append, h.buffers]
  exact or_left_comm

theorem le_of_mem_dropWhile (h : Chunks.Ok S start chunks)
    (hc : c ∈ chunks.dropWhile (·.1 < putOff)) : putOff ≤ c.1 := by
  have hok : Chunks.Ok S start (chunks.takeWhile (·.1 < putOff) ++ chunks.dropWhile _) :=
    takeWhile_append_dropWhile (l := chunks) ▸ h
  cases hhi : chunks.dropWhile (·.1 < putOff) with
  | nil => simp [hhi] at hc
  | cons first rest =>
    have hfirst : putOff ≤ first.1 := by
      simpa [hhi] using head_dropWhile_not (p := (·.1 < putOff)) (l := chunks) (by simp [hhi])
    rw [hhi] at hc hok
    rcases mem_cons.1 hc with rfl | hc
    · exact hfirst
    · have := (hok.right.tail_from.each c hc).le
      omega

/-- **Insertion.** Data whose offset is not the key of a shorter chunk are merged without loss. -/
theorem insertChunk_merged (hl : Chunks.Ok S start chunks)
    (hd : Chunk.Ok S start (putOff, putData))
    (hkey : ∀ c ∈ chunks, c.1 = putOff → putData.length ≤ c.2.length) :
    Merged S start (putOff, putData.length) chunks (insertChunk chunks putOff putData) := by
  have hsplit : chunks.takeWhile (·.1 < putOff) ++ chunks.dropWhile (·.1 < putOff) = chunks :=
    takeWhile_append_dropWhile
  have hhi : ∀ c ∈ chunks.dropWhile (·.1 < putOff), putOff ≤ c.1 :=
    fun c hc => le_of_mem_dropWhile hl hc
  have hlo : ∀ c ∈ chunks.takeWhile (·.1 < putOff), c.1 < putOff := fun c hc => by
    simpa using mem_takeWhile_imp hc
  rw [insertChunk]
  generalize chunks.takeWhile (·.1 < putOff) = lo at *
  generalize chunks.dropWhile (·.1 < putOff) = hi at *
  subst hsplit
  have hemp := emplaceChunk_merged (hd.from_le (Nat.le_refl _)) (hl.right.from_le hhi)
    fun c hc => hkey c (mem_append_right _ hc)
  cases hlast : lo.getLast? with
  | none =>
    obtain rfl := getLast?_eq_none_iff.1 hlast
    exact Merged.of_append .nil hd.le (by simp) hemp
  | some prev =>
    obtain ⟨init, rfl⟩ := getLast?_eq_some_iff.1 hlast
    have hprev := hl.left.each prev (by simp)
    have hinit : ∀ c ∈ init, c.1 + c.2.length < prev.1 := fun c hc =>
      (pairwise_append.1 hl.left.apart).2.2 c hc prev (by simp)
    have hplt := hlo prev (by simp)
    simp only [add_eq hprev.bounded, add_eq hd.bounded]
    split
    next hreach =>
      split
      next hcovered =>
        refine ⟨hl, fun i => ⟨.inr, ?_⟩⟩
        rintro (hi | hi)
        · refine ⟨prev, by simp, ?_⟩
          simp only [Within] at hi ⊢
          omega
        · exact hi
      next hmore =>
        have hfrom : Chunks.Ok S prev.1 hi := hl.right.from_le fun c hc =>
          (hplt.trans_le (hhi c hc)).le
        have hmerged := absorb_merged
          (hprev.extend hd hreach (Nat.lt_of_not_le hmore)) hfrom
        rw [dropLast_concat, append_assoc]
        refine Merged.of_append hl.left.left hprev.le hinit (hmerged.cons fun i => ?_)
        simp only [Within, length_append, length_drop]
        omega
    next hreach =>
      refine Merged.of_append hl.left hd.le (fun c hc => ?_) hemp
      rcases mem_append.1 hc with hc | hc
      · have := hinit c hc
        omega
      · obtain rfl := mem_singleton.1 hc
        omega

/-! ## A receiving session -/

theorem NotReset.nextRecvState {s : Stream} (h : s.NotReset) :
    ¬ (s.nextRecvState = .resetRecvd ∨ s.nextRecvState = .resetRead) := by
  unfold Stream.nextRecvState
  repeat' split
  all_goals first | exact h | simp

theorem trimRead_eq (s : Stream) (offset : Nat) (data : Bytes) :
    s.trimRead offset data =
      (max offset s.recvReadOffset, data.drop (s.recvReadOffset - offset)) := by
  unfold trimRead
  split
  next h => rw [Nat.max_eq_right h.le]
  next h =>
    rw [Nat.max_eq_left (Nat.le_of_not_lt h), Nat.sub_eq_zero_of_le (Nat.le_of_not_lt h),
      drop_zero]

theorem unread (hs : IsSlice S offset data) (hS : S.length < 2 ^ 64)
    (hne : start - offset < data.length) :
    Chunk.Ok S start (max offset start, data.drop (start - offset)) := by
  have hlt := hs.1
  have hslice := hs.drop (k := start - offset) (by omega)
  rw [show offset + (start - offset) = max offset start by omega] at hslice
  refine ⟨hslice, ?_, ?_, Nat.le_max_right _ _⟩
  all_goals simp only [length_drop]; omega

theorem deliver_accepted {s : Stream} (hs : s.NotReset) (h : (s.deliver offset data fin).1 = true) :
    (s.deliver offset data fin).2.recvChunks = s.deliveredChunks offset data ∧
      (s.deliver offset data fin).2.recvReadOffset = s.recvReadOffset ∧
      (s.deliver offset data fin).2.NotReset := by
  have hd := s.delivering offset data fin
  generalize s.deliver offset data fin = r at h hd ⊢
  cases hd with
  | ignored hreset => exact absurd hs hreset
  | refused => cases h
  | accepted => exact ⟨rfl, rfl, NotReset.nextRecvState hs⟩

theorem readContiguous_cons {s : Stream} (hc : s.recvChunks = c :: rest)
    (heq : c.1 = s.recvReadOffset) :
    s.readContiguous.1.1 = c.2 ∧ s.readContiguous.2.recvChunks = rest ∧
      s.readContiguous.2.recvReadOffset = add s.recvReadOffset c.2.length := by
  simp [readContiguous, hc, heq, markRead]

theorem readContiguous_hole {s : Stream}
    (h : ∀ c rest, s.recvChunks = c :: rest → c.1 ≠ s.recvReadOffset) :
    s.readContiguous.1.1 = [] ∧ s.readContiguous.2.recvChunks = s.recvChunks ∧
      s.readContiguous.2.recvReadOffset = s.recvReadOffset := by
  unfold readContiguous
  split
  next => exact ⟨rfl, rfl, rfl⟩
  next first rest heq =>
    rw [if_pos (h first rest heq)]
    exact ⟨rfl, rfl, rfl⟩

theorem NotReset.markRead {s : Stream} (h : s.NotReset) : s.markRead.NotReset := by
  unfold NotReset Stream.markRead
  split
  · simp
  · exact h

theorem NotReset.readContiguous {s : Stream} (h : s.NotReset) : s.readContiguous.2.NotReset := by
  have hread := s.reading
  generalize s.readContiguous = r at hread ⊢
  cases hread with
  | hole => exact h
  | empty => exact h.markRead
  | drained _ _ heq => exact NotReset.markRead (heq ▸ h)

/-- The cursor lies inside `S` and the chunks are slices of it. -/
structure Holds (S : Bytes) (s : Stream) : Prop where
  read_le : s.recvReadOffset ≤ S.length
  chunks : Chunks.Ok S s.recvReadOffset s.recvChunks

theorem Holds.readContiguous (h : Holds S s) : Holds S s.readContiguous.2 ∧
      S.take s.recvReadOffset ++ s.readContiguous.1.1 = S.take s.readContiguous.2.recvReadOffset := by
  have hread := s.reading
  generalize s.readContiguous = r at hread ⊢
  cases hread with
  | hole => exact ⟨h, append_nil _⟩
  | empty => exact ⟨⟨h.read_le, h.chunks⟩, append_nil _⟩
  | @drained c rest t hc hat heq =>
    have hok := hc ▸ h.chunks
    have hslice := hat ▸ hok.head.slice
    rw [add_eq (hat ▸ hok.head.bounded)] at heq
    subst heq
    refine ⟨⟨hslice.1, ?_⟩, hslice.take_append⟩
    have hrest := hat ▸ hok.tail_from
    exact hrest.from_le fun d hd => (Nat.le_succ _).trans (hrest.each d hd).le

/-- Data at the key of a buffered chunk leave the chunks as they are, however long they are. -/
theorem insertChunk_key (h : Chunks.Ok S start chunks) (hc : c ∈ chunks) (data : Bytes) :
    insertChunk chunks c.1 data = chunks := by
  obtain ⟨lo, hi, rfl⟩ := append_of_mem hc
  have hlo : ∀ d ∈ lo, d.1 + d.2.length < c.1 := fun d hd =>
    (pairwise_append.1 h.apart).2.2 d hd c (by simp)
  have hlt : ∀ d ∈ lo, decide (d.1 < c.1) = true := fun d hd => by
    have := hlo d hd
    simp only [decide_eq_true_eq]
    omega
  have hemp : emplaceChunk c.1 data (c :: hi) = c :: hi := by
    rw [emplaceChunk, if_pos rfl]
    cases hi with
    | nil => rfl
    | cons next rest =>
      have hnext := (h.right.tail_from.each next (by simp)).le
      rw [absorb]
      simp only [add_eq h.right.head.bounded]
      rw [if_neg (by omega)]
  rw [insertChunk, takeWhile_append_of_pos hlt, dropWhile_append_of_pos hlt]
  simp only [takeWhile_cons, dropWhile_cons, lt_irrefl, decide_false, Bool.false_eq_true,
    if_false, append_nil, hemp]
  cases hlast : lo.getLast? with
  | none => rw [getLast?_eq_none_iff.1 hlast, nil_append]
  | some prev =>
    have hmem := mem_of_getLast? hlast
    have hprev := hlo prev hmem
    simp only [add_eq (h.left.each prev hmem).bounded]
    rw [if_neg (by omega)]

theorem not_buffers_end (h : Chunks.Ok S start chunks) (hc : c ∈ chunks) :
    ¬ Buffers chunks (c.1 + c.2.length) := by
  rintro ⟨d, hd, hin⟩
  obtain ⟨lo, hi, rfl⟩ := append_of_mem hc
  simp only [Within] at hin
  rcases mem_append.1 hd with hd | hd
  · have := (pairwise_append.1 h.apart).2.2 d hd c (by simp)
    omega
  rcases mem_cons.1 hd with rfl | hd
  · omega
  · have := (h.right.tail_from.each d hd).le
    omega

/-- The calls a receiver makes on a stream that is not reset. -/
inductive RecvCall where
  | deliver (offset : Nat) (data : Bytes) (fin : Bool)
  | readContiguous
  deriving DecidableEq, Repr

/-- A stream with the bytes read from it and the ranges of the accepted frames. -/
structure Session where
  stream : Stream
  read : Bytes := []
  accepted : List (Nat × Nat) := []

namespace Session

def init (id recvLimit sendLimit : Nat) : Session := { stream := { id, recvLimit, sendLimit } }

def step (x : Session) : RecvCall → Session
  | .deliver offset data fin =>
    let (ok, stream) := x.stream.deliver offset data fin
    { x with stream, accepted := if ok then (offset, data.length) :: x.accepted else x.accepted }
  | .readContiguous =>
    let ((bytes, _), stream) := x.stream.readContiguous
    { x with stream, read := x.read ++ bytes }

/-- Every delivered frame is accepted and carries a slice of `S`. -/
def Accepts (S : Bytes) (x : Session) : RecvCall → Prop
  | .deliver offset data fin =>
    (x.stream.deliver offset data fin).1 = true ∧ IsSlice S offset data
  | .readContiguous => True

/-- No buffered chunk that starts where the unread part of the frame starts ends before it. -/
def KeyFree (x : Session) : RecvCall → Prop
  | .deliver offset data _ => ∀ c ∈ x.stream.recvChunks,
      c.1 = max offset x.stream.recvReadOffset → offset + data.length ≤ c.1 + c.2.length
  | .readContiguous => True

instance (S : Bytes) (x : Session) (call : RecvCall) : Decidable (Accepts S x call) := by
  cases call <;> unfold Accepts <;> infer_instance

instance (x : Session) (call : RecvCall) : Decidable (KeyFree x call) := by
  cases call <;> unfold KeyFree <;> infer_instance

/-- The invariant: what was read is an initial segment of `S`, and the read bytes together with
the chunks cover exactly the accepted ranges. -/
structure Inv (S : Bytes) (x : Session) : Prop where
  read_eq : x.read = S.take x.stream.recvReadOffset
  read_le : x.stream.recvReadOffset ≤ S.length
  read_lt : x.stream.recvReadOffset < 2 ^ 64
  chunks : Chunks.Ok S x.stream.recvReadOffset x.stream.recvChunks
  covers : ∀ i, Covers x.accepted i ↔ i < x.stream.recvReadOffset ∨ Buffers x.stream.recvChunks i
  notReset : x.stream.NotReset

theorem inv_init (S : Bytes) (id recvLimit sendLimit : Nat) :
    Inv S (init id recvLimit sendLimit) where
  read_eq := rfl
  read_le := Nat.zero_le _
  read_lt := by simp [init]
  chunks := .nil
  covers i := by simp [init, Covers]
  notReset := by simp [init, NotReset]

variable {x : Session}

theorem Inv.deliveredChunks (h : Inv S x) (hS : S.length < 2 ^ 64)
    (hs : IsSlice S offset data) (hk : KeyFree x (.deliver offset data fin)) :
    Chunks.Ok S x.stream.recvReadOffset (x.stream.deliveredChunks offset data) ∧
      ∀ i, (i < x.stream.recvReadOffset ∨ Buffers (x.stream.deliveredChunks offset data) i) ↔
        Within (offset, data.length) i ∨ i < x.stream.recvReadOffset ∨
          Buffers x.stream.recvChunks i := by
  simp only [Stream.deliveredChunks, trimRead_eq]
  split
  next hnil =>
    rw [drop_eq_nil_iff] at hnil
    refine ⟨h.chunks, fun i => ⟨.inr, ?_⟩⟩
    rintro (hi | hi)
    · simp only [Within] at hi
      omega
    · exact hi
  next hne =>
    rw [drop_eq_nil_iff, not_le] at hne
    obtain ⟨hok, hbuf⟩ := insertChunk_merged h.chunks (unread hs hS hne) fun c hc heq => by
      have := hk c hc heq
      rw [length_drop]
      omega
    refine ⟨hok, fun i => ?_⟩
    rw [hbuf i, ← or_assoc, ← or_assoc]
    refine or_congr ?_ Iff.rfl
    simp only [Within, length_drop]
    omega

theorem Inv.deliver (h : Inv S x) (hS : S.length < 2 ^ 64)
    (ha : Accepts S x (.deliver offset data fin)) (hk : KeyFree x (.deliver offset data fin)) :
    Inv S (x.step (.deliver offset data fin)) := by
  obtain ⟨hacc, hs⟩ := ha
  obtain ⟨hchunks, hread, hreset⟩ := deliver_accepted h.notReset hacc
  obtain ⟨hok, hcov⟩ := h.deliveredChunks hS hs hk
  refine ⟨?_, ?_, ?_, ?_, fun i => ?_, hreset⟩
  · simpa only [step, hread] using h.read_eq
  · simpa only [step, hread] using h.read_le
  · simpa only [step, hread] using h.read_lt
  · simpa only [step, hread, hchunks] using hok
  · simp only [step, hread, hchunks, hacc, if_true, covers_cons, h.covers, hcov]

theorem Inv.readContiguous (h : Inv S x) : Inv S (x.step .readContiguous) := by
  obtain ⟨hholds, hbytes⟩ := Holds.readContiguous ⟨h.read_le, h.chunks⟩
  have hmoved : x.stream.readContiguous.2.recvReadOffset < 2 ^ 64 ∧ ∀ i,
      (i < x.stream.recvReadOffset ∨ Buffers x.stream.recvChunks i) ↔
        i < x.stream.readContiguous.2.recvReadOffset ∨
          Buffers x.stream.readContiguous.2.recvChunks i := by
    have hread := x.stream.reading
    generalize x.stream.readContiguous = r at hread ⊢
    cases hread with
    | hole | empty => exact ⟨h.read_lt, fun _ => Iff.rfl⟩
    | @drained c rest t hc hat heq =>
      have hb := (hc ▸ h.chunks).head.bounded
      rw [add_eq (hat ▸ hb)] at heq
      subst heq
      refine ⟨hat ▸ hb, fun i => ?_⟩
      rw [hc, buffers_cons, ← or_assoc]
      refine or_congr ?_ Iff.rfl
      simp only [Within, Stream.markRead]
      omega
  refine ⟨?_, hholds.read_le, hmoved.1, hholds.chunks, fun i => (h.covers i).trans (hmoved.2 i),
    h.notReset.readContiguous⟩
  exact (congrArg (· ++ _) h.read_eq).trans hbytes

def drain : Nat → Stream → Bytes
  | 0, _ => []
  | n + 1, s => s.readContiguous.1.1 ++ drain n s.readContiguous.2

/-- The bytes still readable: each read drains at most one chunk. -/
def readable (x : Session) : Bytes := drain x.stream.recvChunks.length x.stream

theorem drain_hole {s : Stream}
    (h : ∀ c rest, s.recvChunks = c :: rest → c.1 ≠ s.recvReadOffset) : drain n s = [] := by
  induction n generalizing s with
  | zero => rfl
  | succ n ih =>
    obtain ⟨hbytes, hchunks, hread⟩ := readContiguous_hole h
    rw [drain, hbytes]
    exact ih (by rwa [hchunks, hread])

/-- Reading drains the chunk at the cursor and stops: the next chunk does not touch it. -/
theorem Inv.readable_cons (h : Inv S x) (hc : x.stream.recvChunks = c :: rest)
    (heq : c.1 = x.stream.recvReadOffset) : x.readable = c.2 := by
  obtain ⟨hbytes, hchunks, hread⟩ := readContiguous_cons hc heq
  have hok := hc ▸ h.chunks
  rw [add_eq (heq ▸ hok.head.bounded)] at hread
  rw [readable, hc, length_cons, drain, hbytes, drain_hole, append_nil]
  intro d ds hd
  have := (hok.tail_from.each d (by rw [← hchunks, hd]; simp)).le
  omega

theorem readable_hole
    (h : ∀ c rest, x.stream.recvChunks = c :: rest → c.1 ≠ x.stream.recvReadOffset) :
    x.readable = [] := drain_hole h

/-- Read and readable bytes are the longest covered initial segment of `S`, and every accepted
offset is held with its byte. -/
def Complete (S : Bytes) (x : Session) : Prop :=
  x.read ++ x.readable = S.take (coveredPrefix S.length x.accepted) ∧
    ∀ i, Covers x.accepted i → (i < x.read.length ∧ x.read[i]? = S[i]?) ∨
      ∃ c ∈ x.stream.recvChunks, Within (c.1, c.2.length) i ∧ c.2[i - c.1]? = S[i]?

section
variable (h : Inv S x)
include h

theorem Inv.coveredPrefix_eq :
    coveredPrefix S.length x.accepted = x.stream.recvReadOffset + x.readable.length := by
  by_cases hc : ∃ c rest, x.stream.recvChunks = c :: rest ∧ c.1 = x.stream.recvReadOffset
  · obtain ⟨c, rest, hc, heq⟩ := hc
    have hmem : c ∈ x.stream.recvChunks := hc ▸ mem_cons_self
    rw [h.readable_cons hc heq, ← heq]
    refine Ranges.coveredPrefix_eq (h.chunks.each c hmem).slice.1
      (fun i hi => (h.covers i).2 ?_) (.inr fun hcov => ?_)
    · rw [hc, buffers_cons, ← or_assoc]
      exact .inl (by simp only [Within]; omega)
    · rcases (h.covers _).1 hcov with hlt | hbuf
      · omega
      · exact not_buffers_end h.chunks hmem hbuf
  · rw [readable_hole fun c rest hcr heq => hc ⟨c, rest, hcr, heq⟩]
    refine Ranges.coveredPrefix_eq h.read_le (fun i hi => (h.covers i).2 (.inl hi))
      (.inr fun hcov => ?_)
    obtain ⟨d, hd, hin⟩ := ((h.covers _).1 hcov).resolve_left (by simp)
    obtain ⟨c, rest, hcs⟩ := exists_cons_of_ne_nil (ne_nil_of_mem hd)
    have hok := hcs ▸ h.chunks
    have hfirst := hok.head.le
    simp only [Within, length_nil] at hin
    rcases mem_cons.1 (hcs ▸ hd) with rfl | hd
    · exact hc ⟨d, rest, hcs, by omega⟩
    · have := (hok.tail_from.each d hd).le
      omega

theorem Inv.complete : Complete S x := by
  refine ⟨?_, fun i hi => ?_⟩
  · rw [h.coveredPrefix_eq]
    by_cases hc : ∃ c rest, x.stream.recvChunks = c :: rest ∧ c.1 = x.stream.recvReadOffset
    · obtain ⟨c, rest, hc, heq⟩ := hc
      rw [h.readable_cons hc heq, h.read_eq, ← heq]
      exact (h.chunks.each c (by simp [hc])).slice.take_append
    · rw [readable_hole fun c rest hcr heq => hc ⟨c, rest, hcr, heq⟩]
      simpa using h.read_eq
  · rcases (h.covers i).1 hi with hlt | ⟨c, hc, hin⟩
    · have hle := h.read_le
      rw [h.read_eq]
      refine .inl ⟨?_, getElem?_take_of_lt hlt⟩
      rw [length_take]
      omega
    · refine .inr ⟨c, hc, hin, ?_⟩
      simp only [Within] at hin
      rw [← (h.chunks.each c hc).slice.2, getElem?_take_of_lt (by omega), getElem?_drop]
      congr 1
      omega

/-- A frame at the key of a shorter chunk is accepted and its tail is lost. -/
theorem Inv.not_complete
    (ha : Accepts S x (.deliver offset data fin)) (hk : ¬ KeyFree x (.deliver offset data fin)) :
    ¬ Complete S (x.step (.deliver offset data fin)) := by
  obtain ⟨hacc, hs⟩ := ha
  obtain ⟨hchunks, -, -⟩ := deliver_accepted h.notReset hacc
  simp only [KeyFree, not_forall] at hk
  obtain ⟨c, hc, heq, hlt⟩ := hk
  have hsame : x.stream.deliveredChunks offset data = x.stream.recvChunks := by
    simp only [Stream.deliveredChunks, trimRead_eq, ← heq, insertChunk_key h.chunks hc, ite_self]
  have hcov : Covers (x.step (.deliver offset data fin)).accepted (c.1 + c.2.length) := by
    simp only [step, hacc, if_true, covers_cons]
    exact .inl (by simp only [Within]; omega)
  intro hcomplete
  rcases hcomplete.2 _ hcov with ⟨hread, -⟩ | ⟨d, hd, hin, -⟩
  · have := (h.chunks.each c hc).le
    simp only [step, h.read_eq, length_take] at hread
    omega
  · simp only [step, hchunks, hsame] at hd
    exact not_buffers_end h.chunks hc ⟨d, hd, hin⟩

theorem Inv.step_iff (hS : S.length < 2 ^ 64)
    (ha : Accepts S x call) : Complete S (x.step call) ↔ KeyFree x call := by
  cases call with
  | deliver offset data fin =>
    refine ⟨fun hc => ?_, fun hk => (h.deliver hS ha hk).complete⟩
    by_contra hk
    exact h.not_complete ha hk hc
  | readContiguous => exact ⟨fun _ => trivial, fun _ => h.readContiguous.complete⟩

theorem Inv.step (hS : S.length < 2 ^ 64) (ha : Accepts S x call)
    (hk : KeyFree x call) : Inv S (x.step call) := by
  cases call with
  | deliver offset data fin => exact h.deliver hS ha hk
  | readContiguous => exact h.readContiguous

theorem Inv.run_iff (hS : S.length < 2 ^ 64)
    (ha : Machine.AllSteps Session.step (Accepts S) x calls) :
    Machine.AllSteps Session.step (fun x call => Complete S (x.step call)) x calls ↔
      Machine.AllSteps Session.step KeyFree x calls := by
  refine Machine.allSteps_congr (I := Inv S) ?_ ?_ h ha
  · intro x call h ha
    exact h.step_iff hS ha
  · intro x call h ha _ hk
    exact h.step hS ha hk

end

/-- **Receive completeness.** In a run whose frames are accepted slices of `S`, nothing accepted is
ever lost exactly when no frame starts, after trimming, where a shorter buffered chunk starts. -/
theorem receive_complete_iff (S : Bytes) (hS : S.length < 2 ^ 64) (id recvLimit sendLimit : Nat)
    (calls : List RecvCall)
    (ha : Machine.AllSteps step (Accepts S) (init id recvLimit sendLimit) calls) :
    Machine.AllSteps step (fun x call => Complete S (x.step call)) (init id recvLimit sendLimit)
        calls ↔
      Machine.AllSteps step KeyFree (init id recvLimit sendLimit) calls :=
  (inv_init S id recvLimit sendLimit).run_iff hS ha

/-- Out of order, overlapping and duplicated frames with a read in between. -/
theorem receive_complete_overlap :
    Machine.AllSteps step (fun x call => Complete [1, 2, 3, 4, 5] (x.step call)) (init 0 100 100)
      [.deliver 2 [3, 4] false, .deliver 0 [1] false, .readContiguous, .deliver 0 [1, 2, 3] false,
        .deliver 3 [4, 5] true, .readContiguous] :=
  (receive_complete_iff [1, 2, 3, 4, 5] (by decide) 0 100 100 _ (by decide)).2 (by decide)

/-- Two accepted slices at one offset, the shorter first: the rest of the longer one is lost. -/
theorem receive_loses_longer_frame : ∃ (S : Bytes) (calls : List RecvCall),
    Machine.AllSteps step (Accepts S) (init 0 100 100) calls ∧
      ¬ Complete S (Machine.run step (init 0 100 100) calls) := by
  refine ⟨[1, 2, 3, 4, 5], [.deliver 0 [1, 2] false, .deliver 0 [1, 2, 3, 4, 5] false], by decide,
    fun h => ?_⟩
  have hread := h.1
  revert hread
  decide

end Session

end Spaznet.Quic.Stream
