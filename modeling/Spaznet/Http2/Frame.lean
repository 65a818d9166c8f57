import Spaznet.Http.Response
import Spaznet.Lib.BigEndian

/-!
# HTTP/2 frames

`Frame` and `Settings` with the builders of `Parser`, and how a response is cut into frames. The
compression of header fields is `Hpack`, of which nothing is assumed here.
-/

namespace Spaznet.Http2

open List
open Http (Bytes Headers ascii intText numeral)

/-! ## Numbers -/

def encodeUint24Be (n : Nat) : Bytes := [n >>> 16, n >>> 8, n].map UInt8.ofNat

def encodeUint32Be (n : Nat) : Bytes := [n >>> 24, n >>> 16, n >>> 8, n].map UInt8.ofNat

def readBe (bytes : Bytes) : Nat := bytes.foldl (fun n b => n * 256 + b.toNat) 0

theorem readBe_encodeUint32Be (n : Nat) : readBe (encodeUint32Be n) = n % 2 ^ 32 :=
  BigEndian.decode_encode 4 n

theorem readBe_encodeUint24Be (h : n < 2 ^ 24) : readBe (encodeUint24Be n) = n :=
  (BigEndian.decode_encode 3 n).trans (Nat.mod_eq_of_lt h)

/-! ## Frames -/

/-- A frame type is cast from any byte, so that it may be one without a name. -/
inductive FrameType where
  | data
  | headers
  | priority
  | rstStream
  | settings
  | pushPromise
  | ping
  | goaway
  | windowUpdate
  | continuation
  | other (code : UInt8)
  deriving DecidableEq

namespace FrameType

def toByte : FrameType → UInt8
  | data => 0x0
  | headers => 0x1
  | priority => 0x2
  | rstStream => 0x3
  | settings => 0x4
  | pushPromise => 0x5
  | ping => 0x6
  | goaway => 0x7
  | windowUpdate => 0x8
  | continuation => 0x9
  | other code => code

def ofByte (code : UInt8) : FrameType :=
  match [data, headers, priority, rstStream, settings, pushPromise, ping, goaway, windowUpdate,
    continuation].find? (·.toByte = code) with
  | some type => type
  | none => other code

end FrameType

namespace Flags

def endStream : UInt8 := 0x1
def endHeaders : UInt8 := 0x4
def padded : UInt8 := 0x8
def priority : UInt8 := 0x20
def ack : UInt8 := 0x1

end Flags

structure Frame where
  length : Nat := 0
  type : FrameType
  flags : UInt8 := 0
  streamId : Nat := 0
  payload : Bytes := []
  deriving DecidableEq

namespace Frame

def has (frame : Frame) (flag : UInt8) : Bool := frame.flags &&& flag ≠ 0

def serialize (frame : Frame) : Bytes :=
  encodeUint24Be frame.length ++ [frame.type.toByte, frame.flags] ++
    encodeUint32Be (frame.streamId % 2 ^ 31) ++ frame.payload

/-- The nine bytes of a frame header; the payload is still to come. -/
def readHeader (bytes : Bytes) : Frame :=
  { length := readBe (bytes.take 3)
    type := .ofByte (bytes.getD 3 0)
    flags := bytes.getD 4 0
    streamId := readBe ((bytes.drop 5).take 4) % 2 ^ 31 }

/-- What remains of the payload without its padding, `none` if the padding takes all of it. An empty
payload has no pad length and is taken as it is. -/
def unpadded (frame : Frame) : Option Bytes :=
  match frame.payload with
  | padLen :: rest =>
    if frame.has Flags.padded then
      if padLen.toNat ≥ rest.length then none else some (rest.take (rest.length - padLen.toNat))
    else some frame.payload
  | [] => some []

/-- The part of a header block in a HEADERS frame, without padding and priority fields. -/
def headerFragment (frame : Frame) : Option Bytes :=
  frame.unpadded.bind fun content =>
    if frame.has Flags.priority then if content.length < 5 then none else some (content.drop 5)
    else some content

def windowIncrement (frame : Frame) : Nat := readBe frame.payload % 2 ^ 31

end Frame

/-! ## Settings -/

structure Settings where
  headerTableSize : Nat := 4096
  enablePush : Bool := true
  maxConcurrentStreams : Nat := 0
  initialWindowSize : Nat := 65535
  maxFrameSize : Nat := 16384
  maxHeaderListSize : Nat := 0
  deriving DecidableEq

namespace Settings

def parameter (id : UInt8) (value : Nat) : Bytes := [0x00, id] ++ encodeUint32Be value

def serialize (settings : Settings) : Bytes :=
  parameter 0x1 settings.headerTableSize ++
    parameter 0x2 (if settings.enablePush then 1 else 0) ++
    parameter 0x3 settings.maxConcurrentStreams ++
    parameter 0x4 settings.initialWindowSize ++
    parameter 0x5 settings.maxFrameSize ++
    parameter 0x6 settings.maxHeaderListSize

/-- Unknown parameters, and frame sizes out of range, change nothing. -/
def set (id value : Nat) (settings : Settings) : Settings :=
  match id with
  | 0x1 => { settings with headerTableSize := value }
  | 0x2 => { settings with enablePush := value ≠ 0 }
  | 0x3 => { settings with maxConcurrentStreams := value }
  | 0x4 => { settings with initialWindowSize := value }
  | 0x5 =>
    if value ≥ 16384 ∧ value ≤ 16777215 then { settings with maxFrameSize := value } else settings
  | 0x6 => { settings with maxHeaderListSize := value }
  | _ => settings

def parseInto : Bytes → Settings → Settings
  | i₀ :: i₁ :: v₀ :: v₁ :: v₂ :: v₃ :: rest, settings =>
    parseInto rest (settings.set (readBe [i₀, i₁]) (readBe [v₀, v₁, v₂, v₃]))
  | _, settings => settings

end Settings

/-! ## Building frames -/

def buildDataFrame (streamId : Nat) (data : Bytes) (endStream : Bool) : Frame :=
  { length := data.length
    type := .data
    flags := if endStream then Flags.endStream else 0
    streamId
    payload := data }

def buildSettingsFrame (settings : Settings) (ack : Bool) : Frame :=
  if ack then { type := .settings, flags := Flags.ack }
  else { length := settings.serialize.length, type := .settings, payload := settings.serialize }

def buildGoawayFrame (lastStreamId errorCode : Nat) : Frame :=
  { length := 8
    type := .goaway
    payload := encodeUint32Be lastStreamId ++ encodeUint32Be errorCode }

def buildRstStreamFrame (streamId errorCode : Nat) : Frame :=
  { length := 4, type := .rstStream, streamId, payload := encodeUint32Be errorCode }

def buildWindowUpdateFrame (streamId windowSizeIncrement : Nat) : Frame :=
  { length := 4
    type := .windowUpdate
    streamId
    payload := encodeUint32Be windowSizeIncrement }

def buildPingFrame (opaqueData : Bytes) (ack : Bool) : Frame :=
  { length := 8
    type := .ping
    flags := if ack then Flags.ack else 0
    payload := if opaqueData.length = 8 then opaqueData else List.replicate 8 0 }

/-! ## Requests and responses -/

structure Hpack where
  encodeHeaders : Headers → Bytes
  decodeHeaders : Bytes → Headers

structure Request where
  streamId : Nat
  method : Bytes := []
  path : Bytes := []
  headers : Headers := []
  body : Bytes := []
  deriving DecidableEq

structure Response where
  streamId : Nat := 0
  statusCode : Int := 200
  headers : Headers := []
  body : Bytes := []
  deriving DecidableEq

def isHttp2NameChar (c : UInt8) : Bool :=
  0x61 ≤ c ∧ c ≤ 0x7a ∨ 0x30 ≤ c ∧ c ≤ 0x39 ∨ c ∈ ascii "!#$%&'*+-.^_`|~"

def isValidHttp2Name (name : Bytes) : Bool :=
  match name with
  | [] => false
  | c :: rest =>
    if c = Http.Ascii.colon then rest ≠ [] && rest.all isHttp2NameChar
    else name.all isHttp2NameChar

def isValidHttp2Value (value : Bytes) : Bool := value.all fun c => !Http.isBreak c

def sanitizeHttp2Headers (headers : Headers) : Headers :=
  headers.filter fun e => isValidHttp2Name e.1 && isValidHttp2Value e.2

/-- `headers[key] = value`. The encoder sorts the entries, so that their order is of no account. -/
def put (headers : Headers) (key value : Bytes) : Headers :=
  if key ∈ headers.map Prod.fst then headers.assign key value else headers ++ [(key, value)]

def buildHeadersFrame (hpack : Hpack) (response : Response) (streamId : Nat)
    (endHeaders endStream : Bool) : Frame :=
  let headers := sanitizeHttp2Headers response.headers
  let headers :=
    if ascii ":status" ∈ headers.map Prod.fst then headers
    else put headers (ascii ":status") (intText response.statusCode)
  let payload := hpack.encodeHeaders headers
  { length := payload.length
    type := .headers
    flags := (if endHeaders then Flags.endHeaders else 0) |||
      (if endStream then Flags.endStream else 0)
    streamId
    payload }

/-- The DATA frames of a body. Every one takes a byte at least, so that `fuel` for each byte of the
body is enough. -/
def dataFrames (streamId maxFrameSize : Nat) : (fuel : Nat) → Bytes → List Frame
  | 0, _ => []
  | fuel + 1, body =>
    if body = [] then []
    else
      buildDataFrame streamId (body.take maxFrameSize) (body.length ≤ maxFrameSize) ::
        dataFrames streamId maxFrameSize fuel (body.drop maxFrameSize)

def Response.toFrames (hpack : Hpack) (maxFrameSize : Nat) (response : Response) : List Frame :=
  buildHeadersFrame hpack response response.streamId true (response.body = []) ::
    dataFrames response.streamId maxFrameSize response.body.length response.body

def Response.onStream (streamId : Nat) (response : Response) : Response :=
  let headers := put response.headers (ascii ":status") (intText response.statusCode)
  let headers :=
    if ascii "content-length" ∉ headers.map Prod.fst ∧ response.body ≠ [] then
      put headers (ascii "content-length") (numeral 10 response.body.length)
    else headers
  { response with streamId, headers }

/-- What a call of the handler does: the response it completes the writer with before it returns,
and whether it throws. -/
structure HandlerCall where
  response : Option Response := none
  throws : Bool := false
  deriving DecidableEq

abbrev Handler := (past : List Request) → Request → HandlerCall

/-! ## What a response amounts to -/

/-- How much of a frame counts against the windows. -/
def Frame.flowLength (frame : Frame) : Nat :=
  if frame.type = .data then frame.payload.length else 0

theorem flowLength_of_ne {frame : Frame} (h : frame.type ≠ .data) : frame.flowLength = 0 :=
  if_neg h

theorem forall_mem_dataFrames {P : Frame → Prop}
    (h : ∀ data endStream, P (buildDataFrame streamId data endStream)) (fuel : Nat) (body : Bytes) :
    ∀ frame ∈ dataFrames streamId maxFrameSize fuel body, P frame := by
  induction fuel generalizing body with
  | zero => exact forall_mem_nil _
  | succ fuel ih =>
    unfold dataFrames
    split
    · exact forall_mem_nil _
    · exact forall_mem_cons.mpr ⟨h _ _, ih _⟩

/-- The frames of a body do not exceed it. -/
theorem flowLength_dataFrames (streamId maxFrameSize fuel : Nat) (body : Bytes) :
    ((dataFrames streamId maxFrameSize fuel body).map Frame.flowLength).sum ≤ body.length := by
  induction fuel generalizing body with
  | zero => exact Nat.zero_le _
  | succ fuel ih =>
    unfold dataFrames
    split
    · exact Nat.zero_le _
    have hrest := ih (body.drop maxFrameSize)
    have hchunk : (buildDataFrame streamId (body.take maxFrameSize)
        (body.length ≤ maxFrameSize)).flowLength = (body.take maxFrameSize).length := if_pos rfl
    rw [map_cons, sum_cons, hchunk]
    rw [length_drop] at hrest
    rw [length_take]
    omega

theorem flowLength_toFrames (hpack : Hpack) (maxFrameSize : Nat) (response : Response) :
    ((response.toFrames hpack maxFrameSize).map Frame.flowLength).sum ≤ response.body.length := by
  unfold Response.toFrames
  rw [map_cons, sum_cons, flowLength_of_ne (by nofun), Nat.zero_add]
  exact flowLength_dataFrames _ _ _ _

theorem streamId_of_mem_toFrames {response : Response}
    (h : frame ∈ response.toFrames hpack maxFrameSize) : frame.streamId = response.streamId := by
  obtain rfl | h := mem_cons.mp h
  · rfl
  · exact forall_mem_dataFrames (P := (·.streamId = response.streamId)) (fun _ _ => rfl) _ _ _ h

end Spaznet.Http2
