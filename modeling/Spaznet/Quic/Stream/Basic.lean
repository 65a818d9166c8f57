import Mathlib.Data.List.Sort
import Spaznet.Lib.Word64
import Spaznet.Quic.Varint

/-!
# One QUIC stream

The receive side reassembles chunks, the send side keeps written bytes until they are acknowledged.
`recvChunks` lists the entries of `std::map recv_chunks_` by ascending offset. An access outside
`send_buf_` is undefined behaviour in the code; `pullSend` and `onAcked` return `none` there.
-/

namespace Spaznet.Quic

open Word64

def isBidi (streamId : Nat) : Bool := streamId &&& 0x02 == 0

def isClientInitiated (streamId : Nat) : Bool := streamId &&& 0x01 == 0

inductive RecvState where
  | recv
  | sizeKnown
  | dataRecvd
  | dataRead
  | resetRecvd
  | resetRead
  deriving DecidableEq, Repr

inductive SendState where
  | ready
  | send
  | dataSent
  | dataRecvd
  | resetSent
  | resetRecvd
  deriving DecidableEq, Repr

structure Stream where
  id : Nat
  recvLimit : Nat
  sendLimit : Nat
  recvChunks : List (Nat × Bytes) := []
  recvReadOffset : Nat := 0
  recvHighWater : Nat := 0
  recvFinalSize : Option Nat := none
  /-- Bytes from `sendBufHead` on are live and start at absolute offset `sendBufBaseOffset`. -/
  sendBuf : Bytes := []
  sendBufHead : Nat := 0
  sendBufBaseOffset : Nat := 0
  sendNextOffset : Nat := 0
  sendHighWater : Nat := 0
  sendFinQueued : Bool := false
  sendFinSent : Bool := false
  sendFinAcked : Bool := false
  /-- Acknowledged (offset, length) ranges above the base. -/
  ackedRanges : List (Nat × Nat) := []
  lostRanges : List (Nat × Nat) := []
  resetError : Option Nat := none
  recvState : RecvState := .recv
  sendState : SendState := .ready
  deriving DecidableEq, Repr

namespace Stream

/-! ## Receive side -/

/-- The merge loop: absorb the chunks that start at or before the end of the chunk at `start`. -/
def absorb (start : Nat) (data : Bytes) : List (Nat × Bytes) → List (Nat × Bytes)
  | [] => [(start, data)]
  | next :: rest =>
    let dataEnd := add start data.length
    if next.1 ≤ dataEnd then
      let curEnd := add next.1 next.2.length
      if curEnd > dataEnd then
        let take := curEnd - dataEnd
        absorb start (data ++ next.2.drop (next.2.length - take)) rest
      else absorb start data rest
    else (start, data) :: next :: rest

/-- `emplace` at `putOff` followed by the merge loop, where `hi` lists the chunks from `putOff` on.
When the key is taken the old chunk stays and the new bytes are discarded. -/
def emplaceChunk (putOff : Nat) (putData : Bytes) : List (Nat × Bytes) → List (Nat × Bytes)
  | [] => [(putOff, putData)]
  | it :: rest =>
    if it.1 = putOff then absorb it.1 it.2 rest else absorb putOff putData (it :: rest)

def insertChunk (chunks : List (Nat × Bytes)) (putOff : Nat) (putData : Bytes) :
    List (Nat × Bytes) :=
  let lo := chunks.takeWhile (·.1 < putOff)
  let hi := chunks.dropWhile (·.1 < putOff)
  match lo.getLast? with
  | none => emplaceChunk putOff putData hi
  | some prev =>
    let prevEnd := add prev.1 prev.2.length
    if prevEnd ≥ putOff then
      if prevEnd ≥ add putOff putData.length then chunks
      else lo.dropLast ++ absorb prev.1 (prev.2 ++ putData.drop (prevEnd - putOff)) hi
    else lo ++ emplaceChunk putOff putData hi

def nextRecvState (s : Stream) : RecvState :=
  match s.recvFinalSize with
  | none => s.recvState
  | some finalSize =>
    let known := if s.recvState = .recv then .sizeKnown else s.recvState
    match s.recvChunks with
    | first :: rest =>
      if first.1 = s.recvReadOffset ∧ add first.1 first.2.length = finalSize ∧ rest = [] then
        .dataRecvd
      else known
    | [] => if s.recvReadOffset = finalSize then .dataRead else known

/-- Whether `deliver` refuses the frame: past the flow-control limit, or contradicting the final
size. -/
def refuses (s : Stream) (end_ : Nat) (fin : Bool) : Bool :=
  end_ > s.recvLimit ||
    match s.recvFinalSize with
    | none => false
    | some size => end_ > size || (fin && end_ != size)

def trimRead (s : Stream) (offset : Nat) (data : Bytes) : Nat × Bytes :=
  if offset < s.recvReadOffset then (s.recvReadOffset, data.drop (s.recvReadOffset - offset))
  else (offset, data)

def deliveredChunks (s : Stream) (offset : Nat) (data : Bytes) : List (Nat × Bytes) :=
  let (putOff, putData) := s.trimRead offset data
  if putData = [] then s.recvChunks else insertChunk s.recvChunks putOff putData

def deliver (s : Stream) (offset : Nat) (data : Bytes) (fin : Bool) : Bool × Stream :=
  if s.recvState = .resetRecvd ∨ s.recvState = .resetRead then (true, s)
  else
    let end_ := add offset data.length
    if s.refuses end_ fin then (false, s)
    else
      let s := { s with
        recvFinalSize := if fin then some end_ else s.recvFinalSize
        recvHighWater := if end_ > s.recvHighWater then end_ else s.recvHighWater
        recvChunks := s.deliveredChunks offset data }
      (true, { s with recvState := s.nextRecvState })

def finReached (s : Stream) : Bool := s.recvFinalSize == some s.recvReadOffset

def markRead (s : Stream) : Stream :=
  { s with recvState := if s.finReached then .dataRead else s.recvState }

/-- Drain the first chunk if it starts at the read cursor: the bytes copied and the FIN flag. -/
def readContiguous (s : Stream) : (Bytes × Bool) × Stream :=
  match s.recvChunks with
  | [] => (([], s.finReached), s.markRead)
  | first :: rest =>
    if first.1 ≠ s.recvReadOffset then (([], false), s)
    else
      let s := { s with
        recvReadOffset := add s.recvReadOffset first.2.length
        recvChunks := rest }
      ((first.2, s.finReached), s.markRead)

def resetRecvd (s : Stream) (finalSize appError : Nat) : Bool × Stream :=
  if s.recvFinalSize.isSome ∧ s.recvFinalSize ≠ some finalSize then (false, s)
  else if finalSize > s.recvLimit then (false, s)
  else (true, { s with
    recvFinalSize := some finalSize
    recvHighWater := max s.recvHighWater finalSize
    resetError := some appError
    recvState := .resetRecvd
    recvChunks := [] })

/-! ## Send side -/

def writable (s : Stream) : Bool :=
  match s.sendState with
  | .ready | .send => true
  | .resetSent | .resetRecvd | .dataSent | .dataRecvd => false

def write (s : Stream) (bytes : Bytes) (fin : Bool) : Stream :=
  if !s.writable then s
  else { s with
    sendBuf := s.sendBuf ++ bytes
    sendHighWater := s.sendHighWater + bytes.length
    sendFinQueued := s.sendFinQueued || fin
    sendState := if s.sendState = .ready then .send else s.sendState }

structure Pull where
  taken : Nat := 0
  offset : Nat := 0
  data : Bytes := []
  fin : Bool := false
  deriving DecidableEq, Repr

/-- The `take` buffered bytes at absolute offset `off`, if they all lie inside `send_buf_`. -/
def slice (s : Stream) (off take : Nat) : Option Bytes :=
  let bufOff := add s.sendBufHead (sub off s.sendBufBaseOffset)
  if bufOff + take ≤ s.sendBuf.length then some ((s.sendBuf.drop bufOff).take take) else none

/-- The FIN-only chunk: everything written is on the wire and the FIN is not. -/
def pullFin (s : Stream) : Pull × Stream :=
  if s.sendFinQueued && !s.sendFinSent && s.sendNextOffset == s.sendHighWater then
    ({ offset := s.sendNextOffset, fin := true },
      { s with
        sendFinSent := true
        sendState := if s.sendState = .send then .dataSent else s.sendState })
  else ({}, s)

/-- Serve the front of `lost_ranges_`. -/
def pullLost (s : Stream) (maxBytes : Nat) (r : Nat × Nat) (rest : List (Nat × Nat)) :
    Option (Pull × Stream) :=
  let take := min maxBytes r.2
  (s.slice r.1 take).map fun data =>
    let fin := s.sendFinQueued && r.1 + take == s.sendHighWater
    ({ taken := take, offset := r.1, data, fin },
      { s with
        sendFinSent := s.sendFinSent || fin
        lostRanges := if take = r.2 then rest else (r.1 + take, r.2 - take) :: rest })

/-- How many never-sent bytes may go out: bounded by the caller, the stream window, what is
buffered, and the connection budget. -/
def freshTake (s : Stream) (maxBytes maxFresh : Nat) : Nat :=
  min (min maxBytes (s.sendLimit - s.sendNextOffset))
    (min (sub s.sendHighWater s.sendNextOffset) maxFresh)

def pullFresh (s : Stream) (take : Nat) : Option (Pull × Stream) :=
  (s.slice s.sendNextOffset take).map fun data =>
    let next := s.sendNextOffset + take
    let fin := s.sendFinQueued && next == s.sendHighWater && !s.sendFinSent
    ({ taken := take, offset := s.sendNextOffset, data, fin },
      { s with
        sendNextOffset := next
        sendFinSent := s.sendFinSent || fin
        sendState := if fin && s.sendState == .send then .dataSent else s.sendState })

def pullSend (s : Stream) (maxBytes maxFresh : Nat) : Option (Pull × Stream) :=
  if maxBytes = 0 then some ({}, s)
  else match s.lostRanges with
    | r :: rest => s.pullLost maxBytes r rest
    | [] =>
      if s.sendNextOffset ≥ s.sendLimit then some s.pullFin
      else
        let take := s.freshTake maxBytes maxFresh
        if take = 0 then some s.pullFin else s.pullFresh take

/-- Lexicographic order, as `std::sort` compares pairs. -/
def rangeLe (a b : Nat × Nat) : Prop := a.1 < b.1 ∨ (a.1 = b.1 ∧ a.2 ≤ b.2)

instance : DecidableRel rangeLe := fun a b =>
  inferInstanceAs (Decidable (a.1 < b.1 ∨ (a.1 = b.1 ∧ a.2 ≤ b.2)))

/-- Advance the base and the buffer head over the acknowledged ranges that start at the base. -/
def popAcked (base head : Nat) : List (Nat × Nat) → Nat × Nat × List (Nat × Nat)
  | [] => (base, head, [])
  | r :: rest =>
    if r.1 = base then popAcked (base + r.2) (head + r.2) rest else (base, head, r :: rest)

def kCompactThreshold : Nat := 8 * 1024

/-- Move the live tail to the front once enough of the buffer is dead. -/
def compact (s : Stream) : Option Stream :=
  if s.sendBufHead > kCompactThreshold ∨ s.sendBufHead * 2 > s.sendBuf.length then
    if s.sendBufHead ≤ s.sendBuf.length then
      some { s with sendBuf := s.sendBuf.drop s.sendBufHead, sendBufHead := 0 }
    else none
  else some s

def tryAdvanceSendStateAfterAck (s : Stream) : Stream :=
  if s.sendState = .dataSent ∧ s.sendBuf.length = s.sendBufHead ∧ s.sendFinAcked then
    { s with sendState := .dataRecvd }
  else s

def onAcked (s : Stream) (offset length : Nat) : Option Stream :=
  if length = 0 then
    if s.sendFinSent then some (tryAdvanceSendStateAfterAck { s with sendFinAcked := true })
    else some s
  else
    let sorted := (s.ackedRanges ++ [(offset, length)]).insertionSort rangeLe
    let (base, head, rest) := popAcked s.sendBufBaseOffset s.sendBufHead sorted
    let s := { s with sendBufBaseOffset := base, sendBufHead := head, ackedRanges := rest }
    s.compact.map fun s =>
      let s :=
        if s.sendFinSent ∧ offset + length ≥ s.sendHighWater then { s with sendFinAcked := true }
        else s
      s.tryAdvanceSendStateAfterAck

def onLost (s : Stream) (offset length : Nat) : Stream :=
  let s := if length > 0 then { s with lostRanges := s.lostRanges ++ [(offset, length)] } else s
  if s.sendFinSent ∧ offset + length ≥ s.sendHighWater then { s with sendFinSent := false } else s

def setSendLimit (s : Stream) (newLimit : Nat) : Stream :=
  if newLimit > s.sendLimit then { s with sendLimit := newLimit } else s

/-! ## What the receive calls can do -/

def NotReset (s : Stream) : Prop := ¬ (s.recvState = .resetRecvd ∨ s.recvState = .resetRead)

/-- What an accepted frame leaves, before the receive state is brought up to date. -/
def received (s : Stream) (offset : Nat) (data : Bytes) (fin : Bool) : Stream :=
  { s with
    recvFinalSize := if fin then some (add offset data.length) else s.recvFinalSize
    recvHighWater := max s.recvHighWater (add offset data.length)
    recvChunks := s.deliveredChunks offset data }

theorem not_refuses {s : Stream} (h : ¬ s.refuses size fixes = true) :
    size ≤ s.recvLimit ∧ ∀ n, s.recvFinalSize = some n → size ≤ n ∧ (fixes = true → size = n) := by
  simp only [refuses, Bool.or_eq_true, decide_eq_true_eq, not_or, not_lt] at h
  refine ⟨h.1, fun n hn => ?_⟩
  have hagrees := h.2
  rw [hn] at hagrees
  simpa using hagrees

/-- A frame is ignored after a reset, refused, or accepted. -/
inductive Delivering (s : Stream) (offset : Nat) (data : Bytes) (fin : Bool) :
    Bool × Stream → Prop where
  | ignored (h : ¬ s.NotReset) : Delivering s offset data fin (true, s)
  | refused (h : s.refuses (add offset data.length) fin = true) :
    Delivering s offset data fin (false, s)
  | accepted (h : s.NotReset) (hr : ¬ s.refuses (add offset data.length) fin = true) :
    Delivering s offset data fin (true, { s.received offset data fin with
      recvState := (s.received offset data fin).nextRecvState })

theorem delivering (s : Stream) (offset : Nat) (data : Bytes) (fin : Bool) :
    Delivering s offset data fin (s.deliver offset data fin) := by
  unfold deliver
  split
  next h => exact .ignored (not_not_intro h)
  next h =>
    dsimp only
    split
    next hr => exact .refused hr
    next hr =>
      rw [show ite _ _ _ = max s.recvHighWater _ from (max_def_lt _ _).symm]
      exact .accepted h hr

/-- A reset is refused, or discards what is buffered. -/
inductive Resetting (s : Stream) (finalSize appError : Nat) : Bool × Stream → Prop where
  | refused (hr : s.refuses finalSize true = true) : Resetting s finalSize appError (false, s)
  | accepted (hr : ¬ s.refuses finalSize true = true) :
    Resetting s finalSize appError (true, { s with
      recvFinalSize := some finalSize
      recvHighWater := max s.recvHighWater finalSize
      resetError := some appError
      recvState := .resetRecvd
      recvChunks := [] })

theorem resetting (s : Stream) (finalSize appError : Nat) :
    Resetting s finalSize appError (s.resetRecvd finalSize appError) := by
  have hiff : s.refuses finalSize true = true ↔ finalSize > s.recvLimit ∨
      s.recvFinalSize.isSome ∧ s.recvFinalSize ≠ some finalSize := by
    cases hfinal : s.recvFinalSize <;> simp [refuses, hfinal]
    omega
  unfold resetRecvd
  split
  next h => exact .refused (hiff.2 (.inr h))
  next h =>
    split
    next hlimit => exact .refused (hiff.2 (.inl hlimit))
    next hlimit => exact .accepted fun hr => (hiff.1 hr).elim hlimit h

/-- A read stands at a hole, finds nothing buffered, or drains the chunk at the cursor. -/
inductive Reading (s : Stream) : (Bytes × Bool) × Stream → Prop where
  | hole (hc : s.recvChunks = c :: rest) (hne : c.1 ≠ s.recvReadOffset) :
    Reading s (([], false), s)
  | empty (hc : s.recvChunks = []) : Reading s (([], s.finReached), s.markRead)
  | drained {t : Stream} (hc : s.recvChunks = c :: rest) (hat : c.1 = s.recvReadOffset)
    (heq : t = { s with
      recvReadOffset := add s.recvReadOffset c.2.length, recvChunks := rest }) :
    Reading s ((c.2, t.finReached), t.markRead)

theorem reading (s : Stream) : Reading s s.readContiguous := by
  unfold readContiguous
  split
  next hc => exact .empty hc
  next first rest hc =>
    split
    next hne => exact .hole hc hne
    next hat => exact .drained hc (not_not.1 hat) rfl

end Stream

end Spaznet.Quic
