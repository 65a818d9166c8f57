import Spaznet.Quic.FrameCodec

/-!
# The frame codec is a round trip

For every list of frames within the format, the concatenated encodings parse back to the list.
Adjacent PADDING comes back as one frame, and fields that a frame's flag keeps off the wire come
back cleared.
-/

namespace Spaznet.Quic

open Frame

/-- Frames whose integers fit a varint and that the format can carry are encoded, and parse back:
the same frames in the same order, adjacent PADDING merged, the ECN counts of an ACK frame without
ECN and the frame type of an application close zero. -/
theorem parseFrames_encodeFrames (frames : List Frame) (hfits : ∀ f ∈ frames, f.Fits)
    (hshaped : ∀ f ∈ frames, f.Shaped) :
    ∃ payload, encodeFrames frames = some payload ∧
      parseFrames payload = some ((mergePadding frames).map carried) := by
  obtain ⟨payload, hb⟩ := Option.isSome_iff_exists.mp (encodeFrames_isSome hfits)
  exact ⟨payload, hb, parseFrames_of_encodeFrames hshaped hb⟩

def mixedFrames : List Frame :=
  [padding 2, padding 3, .ack { largestAcked := 9, firstRange := 2, ranges := [⟨1, 3⟩] },
    .newConnectionId ⟨1, 0, [7], List.replicate 16 9⟩, .stream ⟨4, 0, true, true, [1, 2]⟩]

theorem parseFrames_mixedFrames :
    (∀ f ∈ mixedFrames, f.Fits ∧ f.Shaped) ∧
    ∃ payload, encodeFrames mixedFrames = some payload ∧
      parseFrames payload = some (padding 5 :: mixedFrames.drop 2) := by
  have h : ∀ f ∈ mixedFrames, f.Fits ∧ f.Shaped := by
    simp [mixedFrames, Fits, Shaped, AckFrame.Fits, VarInt.kMax]
  exact ⟨h, parseFrames_encodeFrames _ (fun f hf => (h f hf).1) fun f hf => (h f hf).2⟩

/-- An ACK frame without ECN whose counts are set anyway: the counts are not on the wire, so they
do not come back. -/
theorem parseFrames_unsent_counts :
    (Frame.ack { ect0 := 5 }).Fits ∧ (Frame.ack { ect0 := 5 }).Shaped ∧
    ∃ payload, encodeFrames [.ack { ect0 := 5 }] = some payload ∧
      parseFrames payload = some [.ack {}] ∧
      parseFrames payload ≠ some (mergePadding [.ack { ect0 := 5 }]) := by
  refine ⟨by simp [Fits, AckFrame.Fits, VarInt.kMax], trivial, [2, 0, 0, 0, 0], ?_, ?_, ?_⟩ <;>
    decide

end Spaznet.Quic
