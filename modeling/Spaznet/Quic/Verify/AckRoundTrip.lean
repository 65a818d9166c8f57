import Spaznet.Quic.FrameCodec
import Spaznet.Quic.Connection.Frames
import Mathlib.Data.List.Chain
import Mathlib.Data.List.Induction

/-!
# The ACK frame says what the space holds

The ranges of a packet-number space are nonempty intervals in descending order with at least one
number between neighbours, whatever the calls made on it. So no gap or length of the ACK frame built
from them wraps, the frame survives the wire, and the walk of `on_ack_frame` visits those intervals.
-/

namespace Spaznet.Quic.PnSpace

open List Insertion VarInt

/-! ## Descending ranges -/

/-- Nonempty intervals from the highest down, neither overlapping nor adjacent. -/
structure Descending (ranges : List PnRange) : Prop where
  nonempty : ∀ r ∈ ranges, r.lo ≤ r.hi
  apart : ranges.IsChain fun r s => s.hi + 2 ≤ r.lo

def Held (ranges : List PnRange) (pn : Nat) : Prop := ∃ r ∈ ranges, r.lo ≤ pn ∧ pn ≤ r.hi

section
variable {ranges : List PnRange} {r : PnRange} {pn x : Nat}

theorem descending_cons :
    Descending (r :: ranges) ↔
      r.lo ≤ r.hi ∧ (∀ s ∈ ranges.head?, s.hi + 2 ≤ r.lo) ∧ Descending ranges := by
  constructor
  · rintro ⟨hne, hap⟩
    obtain ⟨hr, hne⟩ := forall_mem_cons.mp hne
    obtain ⟨hlo, hap⟩ := isChain_cons.mp hap
    exact ⟨hr, hlo, hne, hap⟩
  · rintro ⟨hr, hlo, hne, hap⟩
    exact ⟨forall_mem_cons.mpr ⟨hr, hne⟩, isChain_cons.mpr ⟨hlo, hap⟩⟩

theorem descending_nil : Descending [] := ⟨forall_mem_nil _, .nil⟩

theorem held_cons : Held (r :: ranges) x ↔ (r.lo ≤ x ∧ x ≤ r.hi) ∨ Held ranges x := by
  simp only [Held, exists_mem_cons_iff]

theorem held_nil : ¬Held [] x := fun ⟨_, h, _⟩ => not_mem_nil h

theorem Descending.held_le (h : Descending (r :: ranges)) (hx : Held (r :: ranges) x) :
    x ≤ r.hi := by
  induction ranges generalizing r with
  | nil => exact ((held_cons.mp hx).resolve_right held_nil).2
  | cons s rest ih =>
    obtain ⟨hr, hlo, hd⟩ := descending_cons.mp h
    rcases held_cons.mp hx with hx | hx
    · exact hx.2
    have hs : s.hi + 2 ≤ r.lo := hlo s rfl
    have := ih hd hx
    omega

/-! ## Insertion -/

def Insertion.result : Insertion → List PnRange
  | .merged ranges | .inserted ranges => ranges

theorem Insertion.result_cons (r : PnRange) (i : Insertion) :
    (i.cons r).result = r :: i.result := by cases i <;> rfl

/-- Placing `pn` between the range above and the ranges below it keeps the order and adds `pn`. -/
theorem placeBelow_spec (higher : Option PnRange) (hd : Descending (higher.toList ++ ranges))
    (habove : ∀ h ∈ higher, pn < h.lo) (hbelow : ∀ s ∈ ranges.head?, s.hi < pn) :
    Descending (placeBelow higher ranges pn).result ∧
      ∀ x, Held (placeBelow higher ranges pn).result x ↔
        x = pn ∨ Held (higher.toList ++ ranges) x := by
  -- in each case the ranges below are unchanged, and what is above them is arithmetic
  cases higher with
  | none =>
    cases ranges with
    | nil =>
      refine ⟨descending_cons.mpr ⟨le_rfl, nofun, descending_nil⟩, fun x => ?_⟩
      simp only [placeBelow, result, held_cons]
      exact or_congr_left (by omega)
    | cons it rest =>
      obtain ⟨hit, hrest, hd'⟩ := descending_cons.mp hd
      have hbelow : it.hi < pn := hbelow it rfl
      simp only [placeBelow, Option.toList_none, nil_append]
      split_ifs with hdown <;> simp only [result, held_cons, ← or_assoc]
      · refine ⟨descending_cons.mpr ⟨?_, hrest, hd'⟩, fun x => or_congr_left (by omega)⟩
        show it.lo ≤ pn
        omega
      · refine ⟨descending_cons.mpr ⟨le_rfl, ?_, hd⟩, fun x => or_congr_left (by omega)⟩
        rintro s ⟨⟩
        show it.hi + 2 ≤ pn
        omega
  | some h =>
    have habove : pn < h.lo := habove h rfl
    obtain ⟨hh, hbelowh, hd'⟩ := descending_cons.mp hd
    cases ranges with
    | nil =>
      simp only [placeBelow, Option.toList_some, singleton_append]
      split_ifs with hup <;> simp only [result, held_cons, ← or_assoc]
      · refine ⟨descending_cons.mpr ⟨?_, nofun, hd'⟩, fun x => or_congr_left (by omega)⟩
        show pn ≤ h.hi
        omega
      · refine ⟨descending_cons.mpr ⟨hh, ?_, descending_cons.mpr ⟨le_rfl, nofun, hd'⟩⟩,
          fun x => or_congr_left (by omega)⟩
        rintro s ⟨⟩
        show pn + 2 ≤ h.lo
        omega
    | cons it rest =>
      obtain ⟨hit, hrest, hd''⟩ := descending_cons.mp hd'
      have hbelow : it.hi < pn := hbelow it rfl
      simp only [placeBelow, Option.toList_some, singleton_append]
      split_ifs with hup hdown hdown <;> simp only [result, held_cons, ← or_assoc]
      · refine ⟨descending_cons.mpr ⟨?_, hrest, hd''⟩, fun x => or_congr_left (by omega)⟩
        show it.lo ≤ h.hi
        omega
      · refine ⟨descending_cons.mpr ⟨?_, ?_, hd'⟩, fun x => or_congr_left (by omega)⟩
        · show pn ≤ h.hi
          omega
        · rintro s ⟨⟩
          show it.hi + 2 ≤ pn
          omega
      · refine ⟨descending_cons.mpr ⟨hh, ?_, descending_cons.mpr ⟨?_, hrest, hd''⟩⟩,
          fun x => or_congr_left (by omega)⟩
        · rintro s ⟨⟩
          show pn + 2 ≤ h.lo
          omega
        · show it.lo ≤ pn
          omega
      · refine ⟨descending_cons.mpr ⟨hh, ?_, descending_cons.mpr ⟨le_rfl, ?_, hd'⟩⟩,
          fun x => or_congr_left (by omega)⟩
        · rintro s ⟨⟩
          show pn + 2 ≤ h.lo
          omega
        · rintro s ⟨⟩
          show it.hi + 2 ≤ pn
          omega

theorem walk_spec (higher : Option PnRange) (hd : Descending (higher.toList ++ ranges))
    (habove : ∀ h ∈ higher, pn < h.lo) :
    Descending (walk higher ranges pn).result ∧
      ∀ x, Held (walk higher ranges pn).result x ↔ x = pn ∨ Held (higher.toList ++ ranges) x := by
  induction ranges generalizing higher with
  | nil => exact placeBelow_spec higher hd habove nofun
  | cons it rest ih =>
    unfold walk
    split_ifs with hhi hlo
    · refine ⟨hd, fun x => ⟨.inr, ?_⟩⟩
      rintro (rfl | hx)
      · exact ⟨it, mem_append_right _ mem_cons_self, hlo, hhi⟩
      · exact hx
    · -- the walk goes on below `it`, and the range passed before stays in front of the result
      cases higher with
      | none => exact ih (some it) hd (by rintro h ⟨⟩; omega)
      | some h =>
        obtain ⟨hh, hit, hd'⟩ := descending_cons.mp hd
        have hit : it.hi + 2 ≤ h.lo := hit it rfl
        obtain ⟨hdesc, hheld⟩ := ih (some it) hd' (by rintro g ⟨⟩; omega)
        rw [result_cons]
        refine ⟨descending_cons.mpr ⟨hh, ?_, hdesc⟩, fun x => ?_⟩
        · intro s hs
          have hs : s ∈ (walk (some it) rest pn).result := mem_of_mem_head? hs
          have hlast := (hheld s.hi).mp ⟨s, hs, hdesc.nonempty s hs, le_rfl⟩
          have : s.hi ≤ it.hi := by
            rcases hlast with heq | hx
            · omega
            · exact hd'.held_le hx
          omega
        · rw [held_cons, hheld]
          exact or_left_comm.trans (or_congr_right held_cons.symm)
    · exact placeBelow_spec higher hd habove (by rintro s ⟨⟩; omega)

theorem Descending.kept {i : Insertion} (h : Descending i.result) : Descending i.kept := by
  cases i with
  | merged => exact h
  | inserted ranges =>
    exact ⟨fun r hr => h.nonempty r (mem_of_mem_take hr), h.apart.take kMaxAckRanges⟩

/-! ## Every call keeps the order -/

theorem descending_concat :
    Descending (ranges ++ [r]) ↔
      Descending ranges ∧ r.lo ≤ r.hi ∧ ∀ s ∈ ranges.getLast?, r.hi + 2 ≤ s.lo := by
  constructor
  · rintro ⟨hne, hap⟩
    obtain ⟨hap, -, hlast⟩ := isChain_append.mp hap
    obtain ⟨hne, hr⟩ := forall_mem_append.mp hne
    exact ⟨⟨hne, hap⟩, hr r (mem_singleton_self r), fun s hs => hlast s hs r rfl⟩
  · rintro ⟨⟨hne, hap⟩, hr, hlast⟩
    refine ⟨forall_mem_append.mpr ⟨hne, by simpa using hr⟩,
      isChain_append.mpr ⟨hap, .singleton r, ?_⟩⟩
    rintro s hs t ⟨⟩
    exact hlast s hs

theorem descending_trimBelow {s : PnSpace} (h : Descending s.ranges) (pn : Nat) :
    Descending (s.trimBelow pn).ranges := by
  obtain ⟨ranges, largest, needs⟩ := s
  induction ranges using List.reverseRecOn with
  | nil => exact descending_nil
  | append_singleton init back ih =>
    obtain ⟨hinit, hback, hlast⟩ := descending_concat.mp h
    by_cases hhi : back.hi < pn
    · simp only [trimBelow, rdropWhile_concat, hhi]
      exact ih hinit
    simp only [trimBelow, rdropWhile_concat, hhi, decide_false, Bool.false_eq_true, if_false,
      getLast?_concat, dropLast_concat]
    split_ifs with hlo
    · exact descending_concat.mpr ⟨hinit, Nat.le_of_not_lt hhi, hlast⟩
    · exact h

end

/-! ## What the ranges hold -/

inductive Call where
  | onReceived (pn : Nat) (ackEliciting : Bool)
  | buildAckFrame (ackDelayUs : Nat)
  | trimBelow (pn : Nat)
  | reset
  deriving DecidableEq, Repr

def call (s : PnSpace) : Call → PnSpace
  | .onReceived pn ackEliciting => s.onReceived pn ackEliciting
  | .buildAckFrame ackDelayUs => (s.buildAckFrame ackDelayUs).2
  | .trimBelow pn => s.trimBelow pn
  | .reset => s.reset

theorem descending_call {s : PnSpace} (h : Descending s.ranges) (c : Call) :
    Descending (s.call c).ranges := by
  cases c with
  | onReceived pn ackEliciting =>
    show Descending (s.onReceived pn ackEliciting).ranges
    rw [onReceived_eq]
    exact (walk_spec none h (by simp)).1.kept
  | buildAckFrame ackDelayUs =>
    have : (s.buildAckFrame ackDelayUs).2.ranges = s.ranges := by
      unfold buildAckFrame
      split <;> rfl
    exact this ▸ h
  | trimBelow pn => exact descending_trimBelow h pn
  | reset => exact descending_nil

def afterCalls (calls : List Call) : PnSpace := calls.foldl call {}

theorem descending_afterCalls (calls : List Call) : Descending (afterCalls calls).ranges := by
  have hrun (s : PnSpace) (h : Descending s.ranges) : Descending (calls.foldl call s).ranges := by
    induction calls generalizing s with
    | nil => exact h
    | cons c rest ih => exact ih (s.call c) (descending_call h c)
  exact hrun {} descending_nil

/-! ## The frame built from descending ranges -/

/-- The gaps and lengths of the ranges below `prev`, as integers. -/
def exactRanges (prev : PnRange) : List PnRange → List (Int × Int)
  | [] => []
  | cur :: rest => ((prev.lo : Int) - cur.hi - 2, (cur.hi : Int) - cur.lo) :: exactRanges cur rest

section
variable {front : PnRange} {rest : List PnRange}

theorem Descending.cons_cons (h : Descending (front :: cur :: rest)) :
    front.lo ≤ front.hi ∧ cur.lo ≤ cur.hi ∧ cur.hi + 2 ≤ front.lo ∧ Descending (cur :: rest) := by
  obtain ⟨hf, hlo, hd⟩ := descending_cons.mp h
  exact ⟨hf, (descending_cons.mp hd).1, hlo cur rfl, hd⟩

/-- Each range lies two below the one before, so there are few of them. -/
theorem Descending.length_le (h : Descending (front :: rest)) : 2 * rest.length ≤ front.hi := by
  induction rest generalizing front with
  | nil => simp
  | cons r rest ih =>
    obtain ⟨hf, -, hlo, hd⟩ := h.cons_cons
    have := ih hd
    rw [length_cons]
    omega

theorem ackRanges_cons (h : Descending (front :: cur :: rest)) (hfit : front.hi ≤ kMax) :
    ackRanges front (cur :: rest) =
      ⟨front.lo - cur.hi - 2, cur.hi - cur.lo⟩ :: ackRanges cur rest := by
  obtain ⟨hf, hcur, hlo, -⟩ := h.cons_cons
  unfold kMax at hfit
  rw [ackRanges, Word64.sub_eq (a := front.lo) (b := cur.hi) (by omega) (by omega),
    Word64.sub_eq (a := front.lo - cur.hi) (b := 2) (by omega) (by omega),
    Word64.sub_eq (a := cur.hi) (b := cur.lo) (by omega) hcur]

/-- No subtraction of `build_ack_frame` wraps. -/
theorem ackRanges_exact (h : Descending (front :: rest)) (hfit : front.hi ≤ kMax) :
    (ackRanges front rest).map (fun r => ((r.gap : Int), (r.length : Int))) =
      exactRanges front rest := by
  induction rest generalizing front with
  | nil => rfl
  | cons cur rest ih =>
    obtain ⟨hf, hcur, hlo, hd⟩ := h.cons_cons
    rw [ackRanges_cons h hfit, map_cons, ih hd (by omega), exactRanges]
    simp only [List.cons.injEq, Prod.mk.injEq, and_true]
    omega

theorem ackRanges_fits (h : Descending (front :: rest)) (hfit : front.hi ≤ kMax) :
    ∀ r ∈ ackRanges front rest, r.gap ≤ kMax ∧ r.length ≤ kMax := by
  induction rest generalizing front with
  | nil => exact forall_mem_nil _
  | cons cur rest ih =>
    obtain ⟨hf, -, hlo, hd⟩ := h.cons_cons
    rw [ackRanges_cons h hfit]
    exact forall_mem_cons.mpr ⟨⟨by simp only; omega, by simp only; omega⟩, ih hd (by omega)⟩

theorem length_ackRanges (prev : PnRange) (rest : List PnRange) :
    (ackRanges prev rest).length = rest.length := by
  induction rest generalizing prev with
  | nil => rfl
  | cons cur rest ih => exact congrArg (· + 1) (ih cur)

/-- Walking the frame's ranges goes through the ranges it was built from. -/
theorem intervalsBelow_ackRanges (h : Descending (front :: rest)) (hfit : front.hi ≤ kMax) :
    AckFrame.intervalsBelow front.lo (ackRanges front rest) = rest.map fun r => (r.lo, r.hi) := by
  induction rest generalizing front with
  | nil => rfl
  | cons cur rest ih =>
    obtain ⟨hf, hcur, hlo, hd⟩ := h.cons_cons
    have hhi : front.lo - (front.lo - cur.hi - 2) - 2 = cur.hi := by omega
    have hback : cur.hi - (cur.hi - cur.lo) = cur.lo := by omega
    rw [ackRanges_cons h hfit, AckFrame.intervalsBelow]
    simp only [hhi, hback, ih hd (by omega), map_cons]
    rw [if_neg (by omega), if_neg (by omega)]

end

/-- In every space reached by calls, if something is held and every number held fits a varint, the
ACK frame has exact gaps and lengths, goes through encoder and parser unchanged, and its walk goes
through exactly the ranges of the space, that is, through the numbers it holds. -/
theorem intervals_afterCalls (calls : List Call) (ackDelayUs : Nat)
    (hdelay : ackDelayUs ≤ kMax) (front : PnRange) (rest : List PnRange)
    (hranges : (afterCalls calls).ranges = front :: rest) (hfit : front.hi ≤ kMax) :
    let f := ((afterCalls calls).buildAckFrame ackDelayUs).1
    (f.firstRange : Int) = (front.hi : Int) - front.lo ∧
    f.ranges.map (fun r => ((r.gap : Int), (r.length : Int))) = exactRanges front rest ∧
    (∃ payload, encodeFrames [.ack f] = some payload ∧ parseFrames payload = some [.ack f]) ∧
    f.intervals = (afterCalls calls).ranges.map (fun r => (r.lo, r.hi)) ∧
    ∀ pn, (∃ i ∈ f.intervals, i.1 ≤ pn ∧ pn ≤ i.2) ↔ Held (afterCalls calls).ranges pn := by
  have hd := descending_afterCalls calls
  rw [hranges] at hd
  obtain ⟨hfront, -, -⟩ := descending_cons.mp hd
  have hsub : Word64.sub front.hi front.lo = front.hi - front.lo :=
    Word64.sub_eq (by unfold kMax at hfit; omega) hfront
  intro f
  have hf : f = ⟨front.hi, ackDelayUs, front.hi - front.lo, ackRanges front rest, false, 0, 0, 0⟩ := by
    simp only [f, buildAckFrame, hranges, hsub]
  have hfits : (Frame.ack f).Fits := by
    rw [hf]
    refine ⟨hfit, hdelay, Nat.le_trans (Nat.sub_le _ _) hfit, ?_, ackRanges_fits hd hfit,
      Nat.zero_le _, Nat.zero_le _, Nat.zero_le _⟩
    have := hd.length_le
    rw [length_ackRanges]
    omega
  have hintervals : f.intervals = (afterCalls calls).ranges.map fun r => (r.lo, r.hi) := by
    rw [hranges, hf, AckFrame.intervals, if_neg (by simp only; omega)]
    simp only [Nat.sub_sub_self hfront, intervalsBelow_ackRanges hd hfit, map_cons]
  refine ⟨?_, ?_, ?_, hintervals, fun pn => ?_⟩
  · rw [hf]
    simp only
    omega
  · rw [hf]
    exact ackRanges_exact hd hfit
  · have hshaped : ∀ g ∈ [Frame.ack f], g.Shaped := forall_mem_singleton.mpr trivial
    obtain ⟨payload, hb⟩ := Option.isSome_iff_exists.mp
      (encodeFrames_isSome (forall_mem_singleton.mpr hfits))
    refine ⟨payload, hb, ?_⟩
    rw [Frame.parseFrames_of_encodeFrames hshaped hb, hf]
    rfl
  · rw [hintervals]
    simp only [mem_map, exists_exists_and_eq_and]
    rfl

/-- Packets 7 and 8 and packet 3, with a gap between them. -/
theorem intervals_two_ranges :
    (afterCalls [.onReceived 3 true, .onReceived 7 true, .onReceived 8 false]).ranges =
        [⟨7, 8⟩, ⟨3, 3⟩] ∧
      ((afterCalls [.onReceived 3 true, .onReceived 7 true, .onReceived 8 false]).buildAckFrame
        0).1.intervals = [(7, 8), (3, 3)] :=
  have h : (afterCalls [.onReceived 3 true, .onReceived 7 true, .onReceived 8 false]).ranges =
      [⟨7, 8⟩, ⟨3, 3⟩] := by decide
  ⟨h, (intervals_afterCalls _ 0 (Nat.zero_le _) _ _ h (by decide)).2.2.2.1.trans (by rw [h]; rfl)⟩

/-- A fresh space holds nothing, yet its frame acknowledges packet 0; and a packet number that no
varint holds makes a frame that cannot be encoded. -/
theorem intervals_nothing_held :
    (¬Held (afterCalls []).ranges 0 ∧
      ∃ payload, encodeFrames [.ack ((afterCalls []).buildAckFrame 0).1] = some payload ∧
        parseFrames payload = some [.ack ((afterCalls []).buildAckFrame 0).1] ∧
        ((afterCalls []).buildAckFrame 0).1.intervals = [(0, 0)]) ∧
    Held (afterCalls [.onReceived (2 ^ 62) true]).ranges (2 ^ 62) ∧
      encodeFrames [.ack ((afterCalls [.onReceived (2 ^ 62) true]).buildAckFrame 0).1] = none := by
  refine ⟨⟨held_nil, [2, 0, 0, 0, 0], by decide, by decide, by decide⟩, ?_, by decide⟩
  exact ⟨⟨2 ^ 62, 2 ^ 62⟩, by decide, le_rfl, le_rfl⟩

end Spaznet.Quic.PnSpace
