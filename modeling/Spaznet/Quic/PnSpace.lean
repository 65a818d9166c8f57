import Spaznet.Lib.Word64
import Spaznet.Quic.Frame
import Mathlib.Data.List.DropRight

/-!
# Acknowledgement bookkeeping of a packet-number space

The received packet numbers are kept as closed intervals, sorted by descending upper end and
merged on insertion. At most `kMaxAckRanges` are retained, the lowest ones being dropped.
-/

namespace Spaznet.Quic

structure PnRange where
  lo : Nat
  hi : Nat
  deriving DecidableEq, Repr

structure PnSpace where
  ranges : List PnRange := []
  largestReceived : Option Nat := none
  needsAck : Bool := false
  deriving DecidableEq, Repr

namespace PnSpace

def kMaxAckRanges : Nat := 32

/-- What the walk over the ranges does with `pn`. -/
inductive Insertion where
  /-- `pn` was covered, or merged into a neighbour: the ranges afterwards. -/
  | merged (ranges : List PnRange)
  | inserted (ranges : List PnRange)
  deriving DecidableEq, Repr

def Insertion.cons (r : PnRange) : Insertion → Insertion
  | .merged rs => .merged (r :: rs)
  | .inserted rs => .inserted (r :: rs)

/-- Place `pn` in ranges that all lie below the already passed range `higher`: extend `higher`
downward, extend the next range upward, or insert a singleton. Returns the new `higher` with the
ranges after it. -/
def placeBelow (higher : Option PnRange) (ranges : List PnRange) (pn : Nat) : Insertion :=
  match higher, ranges with
  | some h, [] =>
    if h.lo = pn + 1 then .merged [{ h with lo := pn }] else .inserted [h, ⟨pn, pn⟩]
  | some h, it :: rest =>
    if h.lo = pn + 1 then
      if it.hi + 1 = pn then .merged ({ h with lo := it.lo } :: rest)
      else .merged ({ h with lo := pn } :: it :: rest)
    else if it.hi + 1 = pn then .merged (h :: { it with hi := pn } :: rest)
    else .inserted (h :: ⟨pn, pn⟩ :: it :: rest)
  | none, [] => .inserted [⟨pn, pn⟩]
  | none, it :: rest =>
    if it.hi + 1 = pn then .merged ({ it with hi := pn } :: rest)
    else .inserted (⟨pn, pn⟩ :: it :: rest)

/-- Walk down to the first range whose upper end is below `pn`. `higher` is the range just
passed. -/
def walk (higher : Option PnRange) : List PnRange → Nat → Insertion
  | [], pn => placeBelow higher [] pn
  | it :: rest, pn =>
    if it.hi ≥ pn then
      if it.lo ≤ pn then .merged (higher.toList ++ it :: rest)
      else match higher with
        | none => walk (some it) rest pn
        | some h => (walk (some it) rest pn).cons h
    else placeBelow higher (it :: rest) pn

def onReceived (s : PnSpace) (pn : Nat) (ackEliciting : Bool) : PnSpace :=
  let s := if ackEliciting then { s with needsAck := true } else s
  let s := match s.largestReceived with
    | none => { s with largestReceived := some pn }
    | some l => if pn > l then { s with largestReceived := some pn } else s
  match walk none s.ranges pn with
  | .merged ranges => { s with ranges }
  | .inserted ranges => { s with ranges := ranges.take kMaxAckRanges }

/-- The ranges after the walk, the lowest dropped where one was added. -/
def Insertion.kept : Insertion → List PnRange
  | .merged ranges => ranges
  | .inserted ranges => ranges.take kMaxAckRanges

theorem onReceived_eq (s : PnSpace) (pn : Nat) (ackEliciting : Bool) :
    s.onReceived pn ackEliciting = ⟨(walk none s.ranges pn).kept,
      some (s.largestReceived.elim pn (max pn)), s.needsAck || ackEliciting⟩ := by
  obtain ⟨ranges, largest, needs⟩ := s
  have hneeds : (if ackEliciting then (⟨ranges, largest, true⟩ : PnSpace)
      else ⟨ranges, largest, needs⟩) = ⟨ranges, largest, needs || ackEliciting⟩ := by
    cases ackEliciting <;> simp
  simp only [onReceived, hneeds]
  cases largest with
  | none => cases walk none ranges pn <;> rfl
  | some l =>
    rcases Nat.lt_or_ge l pn with hlt | hge
    · simp only [if_pos hlt, Option.elim_some, Nat.max_eq_left hlt.le]
      cases walk none ranges pn <;> rfl
    · simp only [if_neg (Nat.not_lt.2 hge), Option.elim_some, Nat.max_eq_right hge]
      cases walk none ranges pn <;> rfl

/-- The (gap, length) pairs of the ranges below `prev`. -/
def ackRanges (prev : PnRange) : List PnRange → List AckRange
  | [] => []
  | cur :: rest =>
    ⟨Word64.sub (Word64.sub prev.lo cur.hi) 2, Word64.sub cur.hi cur.lo⟩ :: ackRanges cur rest

/-- The ACK frame for everything held, and the space with the debt cleared. With nothing held the
frame is empty and the debt stays. -/
def buildAckFrame (s : PnSpace) (ackDelayUs : Nat) : AckFrame × PnSpace :=
  match s.ranges with
  | [] => ({}, s)
  | front :: rest =>
    ({ largestAcked := front.hi, ackDelay := ackDelayUs,
       firstRange := Word64.sub front.hi front.lo,
       ranges := ackRanges front rest }, { s with needsAck := false })

theorem buildAckFrame_eq (s : PnSpace) (ackDelayUs : Nat) :
    ∃ needsAck, (s.buildAckFrame ackDelayUs).2 = { s with needsAck } := by
  unfold buildAckFrame
  split
  · exact ⟨s.needsAck, rfl⟩
  · exact ⟨false, rfl⟩

/-- Drop the ranges below `pn` and cut the lowest one left. -/
def trimBelow (s : PnSpace) (pn : Nat) : PnSpace :=
  let kept := s.ranges.rdropWhile (·.hi < pn)
  { s with
    ranges := match kept.getLast? with
      | none => []
      | some back => if back.lo < pn then kept.dropLast ++ [{ back with lo := pn }] else kept }

def reset (_ : PnSpace) : PnSpace := {}

end PnSpace

end Spaznet.Quic
