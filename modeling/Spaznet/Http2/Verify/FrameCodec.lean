import Spaznet.Http2.Frame

/-!
# The frame codec

`Frame::parse` and `Parser::parse_frame` with the offset they move. A frame is parsed back from its
serialization; but when the parser gives up behind the length or behind the header, the offset stays
there.
-/

namespace Spaznet.Http2

open List
open Http (Bytes ParseResult)

def Frame.parse (data : Bytes) (offset : Nat) : Option Frame × Nat :=
  if offset + 9 > data.length then (none, offset)
  else
    let frame := readHeader (data.drop offset)
    if frame.length > 16384 then (none, offset + 3)
    else if offset + 9 + frame.length > data.length then (none, offset + 9)
    else
      (some { frame with payload := (data.drop (offset + 9)).take frame.length },
        offset + 9 + frame.length)

def parseFrame (data : Bytes) (offset : Nat) : ParseResult Frame × Nat :=
  match Frame.parse data offset with
  | (none, offset) => (.incomplete, offset)
  | (some frame, offset) => (.success frame, offset)

structure Frame.Sendable (frame : Frame) : Prop where
  type : .ofByte frame.type.toByte = frame.type
  length : frame.length = frame.payload.length
  short : frame.payload.length ≤ 16384
  streamId : frame.streamId < 2 ^ 31

/-- An incomplete frame leaves the offset where it was, so that it can be parsed again when there is
more. -/
def Resumes (data : Bytes) (offset : Nat) : Prop :=
  (parseFrame data offset).1 = .incomplete → (parseFrame data offset).2 = offset ∧
    ∀ more, parseFrame (data ++ more) (parseFrame data offset).2 = parseFrame (data ++ more) offset

/-- The whole of a frame that is not too long follows. -/
def Whole (data : Bytes) (offset : Nat) : Prop :=
  (Frame.readHeader (data.drop offset)).length ≤ 16384 ∧
    offset + 9 + (Frame.readHeader (data.drop offset)).length ≤ data.length

theorem resumes_iff (data : Bytes) (offset : Nat) :
    Resumes data offset ↔ (offset + 9 ≤ data.length → Whole data offset) := by
  unfold Resumes parseFrame Frame.parse Whole
  by_cases hshort : offset + 9 > data.length
  · simp only [if_pos hshort, forall_const, and_self, Nat.not_le.mpr hshort, false_imp_iff]
  rw [if_neg hshort]
  dsimp only
  split_ifs with hlong hcut
  all_goals
    simp
    omega

theorem Frame.length_serialize (frame : Frame) :
    frame.serialize.length = 9 + frame.payload.length := by
  simp only [serialize, length_append]
  rfl

theorem Frame.readHeader_serialize {frame : Frame} (h : frame.Sendable) (after : Bytes) :
    readHeader (frame.serialize ++ after) = { frame with payload := [] } := by
  have hlength : readBe (encodeUint24Be frame.length) = frame.length :=
    readBe_encodeUint24Be (h.length ▸ h.short.trans_lt (by decide))
  have hid : readBe (encodeUint32Be (frame.streamId % 2 ^ 31)) % 2 ^ 31 = frame.streamId := by
    have := h.streamId
    rw [readBe_encodeUint32Be]
    omega
  change Frame.mk (readBe (encodeUint24Be frame.length)) (.ofByte frame.type.toByte) frame.flags
    (readBe (encodeUint32Be (frame.streamId % 2 ^ 31)) % 2 ^ 31) [] = _
  rw [hlength, h.type, hid]

theorem Frame.parse_serialize {frame : Frame} (h : frame.Sendable) (before after : Bytes) :
    parse (before ++ frame.serialize ++ after) before.length =
      (some frame, before.length + frame.serialize.length) := by
  have hlength := frame.length_serialize
  have hdrop : (before ++ frame.serialize ++ after).drop before.length =
      frame.serialize ++ after := by
    rw [append_assoc, drop_left]
  have hpayload : (frame.serialize ++ after).drop 9 = frame.payload ++ after := rfl
  have hwhole : before.length + 9 + frame.length ≤ (before ++ frame.serialize ++ after).length := by
    rw [length_append, length_append, hlength, h.length]
    omega
  unfold parse
  rw [if_neg (by omega), ← drop_drop, hdrop, readHeader_serialize h, hpayload]
  dsimp only
  rw [if_neg (Nat.not_lt.mpr (h.length ▸ h.short)), if_neg (Nat.not_lt.mpr hwhole), hlength,
    h.length, take_left, Nat.add_assoc, ← h.length]

/-- **The frame codec.** Whatever stands around it, a frame is parsed back from its serialization.
When a frame is incomplete the offset is kept, unless its header has been read already. -/
theorem frame_codec (data : Bytes) (offset : Nat) :
    (Resumes data offset ↔ (offset + 9 ≤ data.length → Whole data offset)) ∧
      ∀ frame before after, frame.Sendable → Frame.parse (before ++ frame.serialize ++ after)
        before.length = (some frame, before.length + frame.serialize.length) :=
  ⟨resumes_iff data offset, fun _ before after h => Frame.parse_serialize h before after⟩

/-- A header without its payload is not read again. -/
theorem header_skipped : ¬Resumes [0, 0, 1, 0, 0, 0, 0, 0, 1] 0 := by
  intro h
  exact absurd (h (by decide)).1 (by decide)

end Spaznet.Http2
