import Spaznet.Http.Text
import Spaznet.Lib.BigEndian

/-!
# WebSocket frames

`Frame::serialize`, and `build_frame` of the coroutine dispatcher.
-/

namespace Spaznet.WebSocket

open List BigEndian
open Http (Bytes)

/-- An opcode is cast from any byte, so that it may be one without a name. -/
inductive Opcode where
  | continuation
  | text
  | binary
  | close
  | ping
  | pong
  | reserved (code : UInt8)
  deriving DecidableEq

namespace Opcode

def toByte : Opcode → UInt8
  | continuation => 0x0
  | text => 0x1
  | binary => 0x2
  | close => 0x8
  | ping => 0x9
  | pong => 0xA
  | reserved code => code

end Opcode

structure Frame where
  fin : Bool := false
  rsv1 : Bool := false
  rsv2 : Bool := false
  rsv3 : Bool := false
  opcode : Opcode := .continuation
  masked : Bool := false
  payloadLength : Nat := 0
  maskingKey : UInt32 := 0
  payload : Bytes := []
  deriving DecidableEq

namespace Frame

/-- Each byte of the payload against the byte of the key that it meets: masking, and unmasking. -/
def mask (masked : Bool) (key : UInt32) (payload : Bytes) : Bytes :=
  if masked then payload.mapIdx fun i b => b ^^^ UInt8.ofNat (key.toNat >>> ((3 - i % 4) * 8))
  else payload

/-! ## Writing -/

def firstByte (frame : Frame) : UInt8 :=
  (if frame.fin then 0x80 else 0) ||| (if frame.rsv1 then 0x40 else 0) |||
    (if frame.rsv2 then 0x20 else 0) ||| (if frame.rsv3 then 0x10 else 0) ||| frame.opcode.toByte

def lengthCode (payloadLength : Nat) : UInt8 :=
  if payloadLength < 126 then UInt8.ofNat payloadLength
  else if payloadLength < 65536 then 126 else 127

def extendedLength (payloadLength : Nat) : Bytes :=
  if payloadLength < 126 then []
  else encode (if payloadLength < 65536 then 2 else 8) payloadLength

def serialize (frame : Frame) : Bytes :=
  frame.firstByte :: ((if frame.masked then 0x80 else 0) ||| lengthCode frame.payloadLength) ::
    (extendedLength frame.payloadLength ++
      ((if frame.masked then encode 4 frame.maskingKey.toNat else []) ++
        mask frame.masked frame.maskingKey frame.payload))

/-! ## The frames of the coroutine dispatcher -/

/-- `build_frame` of the coroutine dispatcher. -/
def buildFrame (opcode : Opcode) (payload : Bytes) (fin : Bool) : Bytes :=
  let len := payload.length
  let first := (if fin then 0x80 else 0x00) ||| (opcode.toByte &&& 0x0F)
  let header :=
    if len > 65535 then 127 :: (range 8).map fun i => UInt8.ofNat (len >>> (56 - i * 8))
    else if len > 125 then [126, UInt8.ofNat (len >>> 8), UInt8.ofNat len]
    else [UInt8.ofNat len]
  first :: (header ++ payload)

theorem encode_eight (n : Nat) :
    encode 8 n = (range 8).map fun i => UInt8.ofNat (n >>> (56 - i * 8)) := by
  simp [encode, range_succ, ← Nat.shiftRight_add]

theorem and_mask_eq (code : UInt8) (h : code < 16) : code &&& 0x0F = code := by
  obtain ⟨code⟩ := code
  revert code
  decide +kernel

/-- The two dispatchers write the same bytes for a frame whose opcode has four bits. -/
theorem buildFrame_eq_serialize (opcode : Opcode) (payload : Bytes) (fin : Bool)
    (hopcode : opcode.toByte < 16) : buildFrame opcode payload fin =
      serialize { fin, opcode, payloadLength := payload.length, payload } := by
  unfold buildFrame serialize firstByte lengthCode extendedLength
  rw [and_mask_eq _ hopcode]
  rcases Nat.lt_or_ge payload.length 126 with hshort | hlong
  · have hle : ¬payload.length > 65535 := by omega
    have hle' : ¬payload.length > 125 := by omega
    simp [hshort, hle, hle', mask]
  have hge : payload.length > 125 := hlong
  rcases Nat.lt_or_ge payload.length 65536 with hmedium | hlong'
  · have hle : ¬payload.length > 65535 := by omega
    simp [Nat.not_lt.mpr hlong, hge, hmedium, hle, mask, encode]
  · have hge' : payload.length > 65535 := hlong'
    simp [Nat.not_lt.mpr hlong, hge', Nat.not_lt.mpr hlong', mask, encode_eight]

theorem buildFrame_eq_serialize_ping : Opcode.ping.toByte < 16 ∧ buildFrame .ping [1] true =
    serialize { fin := true, opcode := .ping, payloadLength := 1, payload := [1] } :=
  ⟨by decide, buildFrame_eq_serialize .ping [1] true (by decide)⟩

end Frame

end Spaznet.WebSocket
