import Spaznet.Lib.Decoder
import Spaznet.Quic.Varint

/-!
# HTTP/3 frames

`parseH3Frame` and `encodeH3Frame`, and the two functions of the server that take a varint or a
frame off the front of a buffer. `encodeH3Frame` fails where `VarInt::append` throws.
-/

namespace Spaznet.Http3

open List Option Quic.VarInt
open Quic (Bytes VarInt.decode VarInt.encode)

inductive H3Frame where
  | settings (entries : List (Nat × Nat))
  | data (data : Bytes)
  | headers (encodedFieldSection : Bytes)
  | goAway (streamOrPushId : Nat)
  | maxPushId (value : Nat)
  | cancelPush (pushId : Nat)
  | reserved (type : Nat) (data : Bytes)
  deriving DecidableEq

namespace H3FrameType

def data : Nat := 0x00
def headers : Nat := 0x01
def cancelPush : Nat := 0x03
def settings : Nat := 0x04
def goAway : Nat := 0x07
def maxPushId : Nat := 0x0d

end H3FrameType

/-! ## Parsing -/

/-- The entries from `off` on; each takes two bytes or more. -/
def parseSettings (body : Bytes) : (fuel off : Nat) → Option (List (Nat × Nat))
  | 0, _ => some []
  | fuel + 1, off =>
    if off ≥ body.length then some []
    else match decode body off with
      | none => none
      | some (id, off) => match decode body off with
        | none => none
        | some (val, off) => (parseSettings body fuel off).map ((id, val) :: ·)

def parseId (body : Bytes) : Option Nat :=
  match decode body 0 with
  | none => none
  | some (v, off) => if off = body.length then some v else none

def parseBody (type : Nat) (body : Bytes) : Option H3Frame :=
  if type = H3FrameType.data then some (.data body)
  else if type = H3FrameType.headers then some (.headers body)
  else if type = H3FrameType.settings then (parseSettings body body.length 0).map .settings
  else if type = H3FrameType.goAway then (parseId body).map .goAway
  else if type = H3FrameType.maxPushId then (parseId body).map .maxPushId
  else if type = H3FrameType.cancelPush then (parseId body).map .cancelPush
  else some (.reserved type body)

/-- The frame at `offset`, and where the offset is left: a payload that is malformed is passed
over. -/
def parseH3Frame (buf : Bytes) (offset : Nat) : Option H3Frame × Nat :=
  match decode buf offset with
  | none => (none, offset)
  | some (type, off) => match decode buf off with
    | none => (none, offset)
    | some (length, off) =>
      if off + length > buf.length then (none, offset)
      else (parseBody type ((buf.drop off).take length), off + length)

def consumeLeadingVarint (buf : Bytes) : Option (Nat × Bytes) :=
  (decode buf 0).map fun p => (p.1, buf.drop p.2)

def consumeLeadingH3Frame (buf : Bytes) : Option (H3Frame × Bytes) :=
  match parseH3Frame buf 0 with
  | (none, _) => none
  | (some f, off) => some (f, buf.drop off)

/-! ## Encoding -/

def encodeFramed (type : Nat) (body : Bytes) : Option Bytes :=
  (encode type).bind fun type =>
    (encode body.length).map fun length => type ++ length ++ body

def encodeSettings : List (Nat × Nat) → Option Bytes
  | [] => some []
  | (id, v) :: entries =>
    (encode id).bind fun id =>
      (encode v).bind fun v => (encodeSettings entries).map fun rest => id ++ v ++ rest

def encodeH3Frame : H3Frame → Option Bytes
  | .data data => encodeFramed H3FrameType.data data
  | .headers encodedFieldSection => encodeFramed H3FrameType.headers encodedFieldSection
  | .settings entries => (encodeSettings entries).bind (encodeFramed H3FrameType.settings)
  | .goAway streamOrPushId =>
    (encode streamOrPushId).bind (encodeFramed H3FrameType.goAway)
  | .maxPushId value => (encode value).bind (encodeFramed H3FrameType.maxPushId)
  | .cancelPush pushId => (encode pushId).bind (encodeFramed H3FrameType.cancelPush)
  | .reserved type data => encodeFramed type data

/-! ## Frames in a row -/

def varintTail (first : UInt8) : Nat := 1 <<< (first >>> 6).toNat - 1

theorem size_eq (first : UInt8) : 1 <<< (first >>> 6).toNat = varintTail first + 1 := by
  have hpos : 0 < 1 <<< (first >>> 6).toNat := by
    rw [Nat.one_shiftLeft]
    exact Nat.two_pow_pos _
  unfold varintTail
  omega

theorem decode_of_remaining (h : Remaining buf offset (first :: t)) :
    decode buf offset = (takeExactly (varintTail first) t).map fun p =>
      (Quic.VarInt.accumulate (first &&& 0x3F).toNat p.1, offset + 1 + varintTail first) := by
  have hlength := h.length_eq
  rw [length_cons] at hlength
  unfold Quic.VarInt.decode takeExactly
  rw [h.getElem?_eq, h.next.drop_eq]
  dsimp only
  rw [size_eq]
  by_cases hle : varintTail first ≤ t.length
  · rw [if_neg (by omega), if_pos hle, map_some, Nat.add_sub_cancel, Nat.add_assoc,
      Nat.add_comm 1]
  · rw [if_pos (by omega), if_neg hle, map_none]

theorem decode_of_remaining_nil (h : Remaining buf offset []) :
    decode buf offset = none := by
  have hlength := h.length_eq
  unfold Quic.VarInt.decode
  rw [getElem?_eq_none (by rw [hlength]; exact Nat.le_refl _)]

theorem consumeLeadingVarint_cons (first : UInt8) (t : Bytes) :
    consumeLeadingVarint (first :: t) = (takeExactly (varintTail first) t).map fun p =>
      (Quic.VarInt.accumulate (first &&& 0x3F).toNat p.1, p.2) := by
  unfold consumeLeadingVarint
  rw [decode_of_remaining (.start _), Option.map_map]
  unfold takeExactly
  split
  · rw [Nat.add_comm 1]
    rfl
  · rfl

/-- Decoding at an offset is decoding at the front of the rest. -/
theorem decode_eq_consume (h : Remaining buf offset t) :
    decode buf offset =
      (consumeLeadingVarint t).map fun p => (p.1, offset + (t.length - p.2.length)) := by
  cases t with
  | nil => exact decode_of_remaining_nil h
  | cons first t =>
    rw [decode_of_remaining h, consumeLeadingVarint_cons, Option.map_map]
    unfold takeExactly
    split
    next hle =>
      rw [Option.map_some, Option.map_some, Function.comp_apply, length_cons,
        length_drop]
      congr 2
      omega
    · rfl

theorem local_consumeLeadingVarint : Local consumeLeadingVarint := by
  intro buf v rest h
  cases buf with
  | nil => cases h
  | cons first t =>
    rw [consumeLeadingVarint_cons] at h
    obtain ⟨used, rfl, hused⟩ := (local_takeExactly (varintTail first)).map
      (Quic.VarInt.accumulate (first &&& 0x3F).toNat) h
    refine ⟨first :: used, rfl, fun more => ?_⟩
    rw [cons_append, consumeLeadingVarint_cons]
    exact hused more

theorem progresses_consumeLeadingVarint : Progresses consumeLeadingVarint := by
  intro buf v rest h
  cases buf with
  | nil => cases h
  | cons first t =>
    rw [consumeLeadingVarint_cons] at h
    obtain ⟨used, rfl, -⟩ := (local_takeExactly (varintTail first)).map
      (Quic.VarInt.accumulate (first &&& 0x3F).toNat) h
    rw [length_cons, length_append]
    omega

def takeBody (type length : Nat) (buf : Bytes) : Option (H3Frame × Bytes) :=
  (takeExactly length buf).bind fun body => (parseBody type body.1).map (·, body.2)

theorem consumeLeadingH3Frame_eq (buf : Bytes) :
    consumeLeadingH3Frame buf = (consumeLeadingVarint buf).bind fun type =>
      (consumeLeadingVarint type.2).bind fun length => takeBody type.1 length.1 length.2 := by
  have hstart := Remaining.start buf
  unfold consumeLeadingH3Frame parseH3Frame
  rw [decode_eq_consume hstart]
  cases htype : consumeLeadingVarint buf with
  | none => rfl
  | some p =>
    obtain ⟨type, rest⟩ := p
    obtain ⟨used, rfl, -⟩ := local_consumeLeadingVarint htype
    have hoff : 0 + ((used ++ rest).length - rest.length) = 0 + used.length := by
      rw [length_append]
      omega
    have hrest : Remaining (used ++ rest) (0 + used.length) rest := hstart.advance
    rw [map_some, bind_some, hoff]
    dsimp only
    rw [decode_eq_consume hrest]
    cases hlength : consumeLeadingVarint rest with
    | none => rfl
    | some p =>
      obtain ⟨length, body⟩ := p
      obtain ⟨used', rfl, -⟩ := local_consumeLeadingVarint hlength
      have hoff' : 0 + used.length + ((used' ++ body).length - body.length) =
          0 + used.length + used'.length := by
        rw [length_append]
        omega
      have hbody : Remaining (used ++ (used' ++ body)) (0 + used.length + used'.length) body :=
        hrest.advance
      have hsize := hbody.length_eq
      rw [map_some, bind_some, hoff']
      dsimp only
      rw [hbody.drop_eq]
      unfold takeBody takeExactly
      by_cases hle : length ≤ body.length
      · rw [if_neg (by omega), if_pos hle, bind_some]
        cases parseBody type (body.take length) with
        | none => rfl
        | some f =>
          dsimp only
          rw [map_some, ← drop_drop, hbody.drop_eq]
      · rw [if_pos (by omega), if_neg hle, bind_none]

theorem local_takeBody (type length : Nat) : Local (takeBody type length) :=
  (local_takeExactly length).bind fun body => local_option (parseBody type body)

theorem local_consumeLeadingH3Frame : Local consumeLeadingH3Frame := by
  rw [funext consumeLeadingH3Frame_eq]
  exact local_consumeLeadingVarint.bind fun type =>
    local_consumeLeadingVarint.bind fun length => local_takeBody type length

theorem progresses_consumeLeadingH3Frame : Progresses consumeLeadingH3Frame := by
  rw [funext consumeLeadingH3Frame_eq]
  exact progresses_consumeLeadingVarint.bind fun type =>
    local_consumeLeadingVarint.bind fun length => local_takeBody type length

def frames : Intake UInt8 Bytes H3Frame :=
  local_consumeLeadingH3Frame.intake progresses_consumeLeadingH3Frame

end Spaznet.Http3
