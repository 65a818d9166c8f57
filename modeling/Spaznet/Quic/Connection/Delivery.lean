import Spaznet.Quic.Connection.Footprint

/-!
# What STREAM and RESET_STREAM frames do to the streams

`deliverTo` is described by lookups: a frame that the stream limit and the offset bound admit leaves
its stream open, with what `apply` made of it if both flow-control checks passed, and touches no
other stream.
-/

namespace Spaznet.Quic

namespace Connection

variable (c : Connection) (streamId : Nat) (d : StreamDelivery) (id : Nat)

def streamOrNew (c : Connection) (streamId : Nat) : Stream :=
  (c.findStream streamId).getD (c.newStream streamId)

theorem ensureStream_fst : (c.ensureStream streamId).1 = c.streamOrNew streamId := by
  unfold ensureStream streamOrNew
  split
  next h => rw [h, Option.getD_some]
  next h => rw [h, Option.getD_none]

theorem findStream_ensureStream :
    (c.ensureStream streamId).2.findStream id =
      if id = streamId then some (c.streamOrNew streamId) else c.findStream id := by
  unfold ensureStream streamOrNew
  split
  next s h =>
    split
    next hid => rw [hid, h, Option.getD_some]
    next => rfl
  next h =>
    rw [h]
    exact OrdMap.find?_insert _ _ _ _

/-- The frame opens its stream, or finds it open. -/
def admits (c : Connection) (d : StreamDelivery) : Bool :=
  !c.exceedsStreamLimit d.streamId && !d.overflows

/-- The frame is handed to its stream, which takes it. -/
def accepts (c : Connection) (d : StreamDelivery) : Bool :=
  c.admits d && !c.exceedsConnLimit (c.streamOrNew d.streamId).recvHighWater d.end_ &&
    (d.apply (c.streamOrNew d.streamId)).1

def streamAfter (c : Connection) (d : StreamDelivery) : Stream :=
  if c.accepts d then (d.apply (c.streamOrNew d.streamId)).2 else c.streamOrNew d.streamId

theorem exceedsConnLimit_ensureStream (streamId prevHw end_ : Nat) :
    (c.ensureStream streamId).2.exceedsConnLimit prevHw end_ = c.exceedsConnLimit prevHw end_ := by
  unfold ensureStream
  split <;> rfl

theorem deliverTo_eq : ∃ code reason frameType,
    c.deliverTo d =
      if c.accepts d then (c.ensureStream d.streamId).2.chargeStream d.streamId
        (c.streamOrNew d.streamId).recvHighWater (d.apply (c.streamOrNew d.streamId)).2
      else if c.admits d then (c.ensureStream d.streamId).2.closeTransport code reason frameType
      else c.closeTransport code reason frameType := by
  unfold deliverTo accepts admits
  dsimp only
  rw [ensureStream_fst, exceedsConnLimit_ensureStream]
  split
  next h => exact ⟨0x04, "stream limit exceeded", FrameType.stream, by simp [h]⟩
  next h =>
    split
    next h' => exact ⟨0x03, d.overflowReason, d.frameType, by simp [h']⟩
    next h' =>
      split
      next hconn =>
        exact ⟨0x03, "connection flow control", d.frameType, by simp [h, h', hconn]⟩
      next hconn =>
        split
        next hok => exact ⟨d.refusedCode, d.refusedReason, d.frameType, by simp_all⟩
        next hok => exact ⟨0, "", 0, by simp_all⟩

theorem findStream_deliverTo :
    (c.deliverTo d).findStream id =
      if id = d.streamId ∧ c.admits d then some (c.streamAfter d) else c.findStream id := by
  obtain ⟨code, reason, frameType, h⟩ := c.deliverTo_eq d
  rw [h]
  unfold streamAfter
  split
  next hacc =>
    have hadm : c.admits d = true := by simp_all [accepts]
    have hfind : ((c.ensureStream d.streamId).2.streams.modify d.streamId fun _ =>
        (d.apply (c.streamOrNew d.streamId)).2).find? id = _ := OrdMap.find?_modify _ _ _ _
    refine hfind.trans ?_
    have hens := c.findStream_ensureStream d.streamId id
    rw [findStream] at hens
    rw [hens]
    by_cases hid : id = d.streamId <;> simp [hid, hadm]
  next hacc =>
    split
    next hadm =>
      refine (c.findStream_ensureStream d.streamId id).trans ?_
      simp [hadm]
    next hadm =>
      rw [if_neg fun hn => hadm hn.2]
      rfl

end Connection

end Spaznet.Quic
