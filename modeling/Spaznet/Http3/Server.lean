import Spaznet.Http.Response
import Spaznet.Http3.Frame
import Spaznet.Http3.Qpack
import Spaznet.Quic.Connection.Run

/-!
# The HTTP/3 layer of a connection

`Http3Server` on top of a QUIC connection: `pump` reads the streams and calls the handler for every
request that has ended. An `Endpoint` is a connection with its server, and with the calls of the
handler so far, which are not kept in the code. The handler may depend on them, and may throw; so
does the encoding of a response that is too long for a varint. A throw leaves the loop over the
streams.
-/

namespace Spaznet.Http3

open Quic (Bytes Connection Action Run isBidi isClientInitiated)
open Http (ascii intText)

structure Http3Request where
  method : Bytes := []
  scheme : Bytes := []
  authority : Bytes := []
  path : Bytes := []
  headers : HeaderList := []
  body : Bytes := []
  deriving DecidableEq

structure Http3Response where
  statusCode : Int := 200
  headers : HeaderList := []
  body : Bytes := []

def kMaxRequestStreamBytes : Nat := 64 * 1024 * 1024
def kMaxRequestBodyBytes : Nat := 64 * 1024 * 1024
def kMaxFieldSectionBytes : Nat := 128 * 1024
def kMaxUniStreamBytes : Nat := 64 * 1024
def kH3ExcessiveLoad : Nat := 0x0508

def kServerControl : Nat := 3
def kServerQpackEncoder : Nat := 7
def kServerQpackDecoder : Nat := 11

def isUni (id : Nat) : Bool := !isBidi id

def isRequestStream (id : Nat) : Bool := !isUni id && isClientInitiated id

/-! ## Requests -/

namespace Http3Request

def addField (req : Http3Request) (field : Bytes × Bytes) : Http3Request :=
  if field.1 = ascii ":method" then { req with method := field.2 }
  else if field.1 = ascii ":scheme" then { req with scheme := field.2 }
  else if field.1 = ascii ":authority" then { req with authority := field.2 }
  else if field.1 = ascii ":path" then { req with path := field.2 }
  else { req with headers := req.headers ++ [field] }

def addFields (req : Http3Request) (fields : HeaderList) : Http3Request :=
  fields.foldl addField req

end Http3Request

structure PendingRequest where
  recvBuf : Bytes := []
  req : Http3Request := {}
  headersParsed : Bool := false
  finSeen : Bool := false
  handled : Bool := false
  deriving DecidableEq

inductive Drained where
  /-- No complete frame is left. -/
  | dry
  /-- A field section could not be decoded: `process_stream` returns. -/
  | undecodable
  /-- A limit is exceeded: the connection is closed, and `process_stream` returns. -/
  | excessive (reason : String)
  deriving DecidableEq

namespace PendingRequest

def onFrame (pr : PendingRequest) : H3Frame → Except Drained PendingRequest
  | .headers section_ =>
    if section_.length > kMaxFieldSectionBytes then .error (.excessive "header section too large")
    else match qpackDecode section_ with
      | none => .error .undecodable
      | some fields => .ok { pr with req := pr.req.addFields fields, headersParsed := true }
  | .data data =>
    if data.length > kMaxRequestBodyBytes - pr.req.body.length then
      .error (.excessive "request body too large")
    else .ok { pr with req := { pr.req with body := pr.req.body ++ data } }
  | .settings _ | .goAway _ | .maxPushId _ | .cancelPush _ | .reserved _ _ => .ok pr

/-- The loop over the frames in the buffer. A frame is taken out before it is looked at. -/
def drain : (fuel : Nat) → PendingRequest → PendingRequest × Drained
  | 0, pr => (pr, .dry)
  | fuel + 1, pr =>
    match consumeLeadingH3Frame pr.recvBuf with
    | none => (pr, .dry)
    | some (f, rest) => match ({ pr with recvBuf := rest } : PendingRequest).onFrame f with
      | .error stop => ({ pr with recvBuf := rest }, stop)
      | .ok pr => drain fuel pr

/-- What is read from the stream goes into the buffer, and the buffer is drained. -/
def feed (pr : PendingRequest) (chunk : Bytes) (fin : Bool) : PendingRequest × Drained :=
  if chunk.length > kMaxRequestStreamBytes - pr.recvBuf.length then
    (pr, .excessive "request stream buffer overflow")
  else
    let buf := pr.recvBuf ++ chunk
    drain buf.length { pr with recvBuf := buf, finSeen := pr.finSeen || fin }

def ready (pr : PendingRequest) : Bool := pr.headersParsed && pr.finSeen && !pr.handled

end PendingRequest

/-! ## Unidirectional streams -/

structure PendingUni where
  type : Option Nat := none
  buf : Bytes := []
  deriving DecidableEq

namespace PendingUni

def readType (u : PendingUni) : Option PendingUni :=
  match u.type with
  | some _ => some u
  | none => (consumeLeadingVarint u.buf).map fun p => { type := some p.1, buf := p.2 }

/-- Frames of the control stream are parsed and dropped, everything else is dropped unread. -/
def discard (u : PendingUni) : PendingUni :=
  if u.type = some 0x00 then { u with buf := frames.rest u.buf } else { u with buf := [] }

def feed (u : PendingUni) (chunk : Bytes) : Option PendingUni :=
  if chunk.length > kMaxUniStreamBytes - u.buf.length then none
  else
    let u := { u with buf := u.buf ++ chunk }
    some (match u.readType with
      | none => u
      | some u => u.discard)

end PendingUni

/-! ## The server -/

structure Http3Server where
  initialized : Bool := false
  pending : OrdMap PendingRequest := ∅
  uni : OrdMap PendingUni := ∅

/-- The answers of the handler, given the requests before; none where it throws. -/
abbrev RequestFn := List Http3Request → Http3Request → Option Http3Response

/-- The bytes of a response; none where an encoding throws. -/
def Http3Response.wire (resp : Http3Response) : Option Bytes :=
  let headers := (ascii ":status", intText resp.statusCode) :: resp.headers
  (encodeH3Frame (.headers (qpackEncode headers))).bind fun head =>
    if resp.body = [] then some head else (encodeH3Frame (.data resp.body)).map (head ++ ·)

/-- A call of the handler: the stream, the request, and what the connection had done by then. -/
structure Call where
  id : Nat
  req : Http3Request
  past : List (Connection × Action)

structure Endpoint where
  run : Run
  server : Http3Server := {}
  calls : List Call := []

namespace Endpoint

def pendingAt (x : Endpoint) (id : Nat) : PendingRequest := (x.server.pending.find? id).getD {}

def uniAt (x : Endpoint) (id : Nat) : PendingUni := (x.server.uni.find? id).getD {}

def setPending (x : Endpoint) (id : Nat) (pr : PendingRequest) : Endpoint :=
  { x with server := { x.server with pending := x.server.pending.insert id pr } }

def setUni (x : Endpoint) (id : Nat) (u : PendingUni) : Endpoint :=
  { x with server := { x.server with uni := x.server.uni.insert id u } }

def readOf (x : Endpoint) (id : Nat) : Bytes × Bool := (x.run.conn.readStream id).1

section
variable (env : Quic.Env) (handler : RequestFn)

def perform (x : Endpoint) (a : Action) : Endpoint := { x with run := x.run.perform env a }

def closeExcessive (x : Endpoint) (reason : String) : Endpoint :=
  x.perform env (.close kH3ExcessiveLoad true (Connection.reasonBytes reason) 0)

def processUni (x : Endpoint) (id : Nat) (chunk : Bytes) : Endpoint :=
  match (x.uniAt id).feed chunk with
  | none => (x.setUni id (x.uniAt id)).closeExcessive env "uni stream buffer overflow"
  | some u => x.setUni id u

/-- The handler is called and its response written. The flag says that nothing was thrown. -/
def respond (x : Endpoint) (id : Nat) (pr : PendingRequest) : Endpoint × Bool :=
  let x' := { x.setPending id { pr with handled := true } with
    calls := x.calls ++ [⟨id, pr.req, x.run.trace⟩] }
  match (handler (x.calls.map Call.req) pr.req).bind Http3Response.wire with
  | none => (x', false)
  | some wire => (x'.perform env (.writeStream id wire true), true)

def processRequest (x : Endpoint) (id : Nat) (chunk : Bytes) (fin : Bool) : Endpoint × Bool :=
  match (x.pendingAt id).feed chunk fin with
  | (pr, .excessive reason) => ((x.setPending id pr).closeExcessive env reason, true)
  | (pr, .undecodable) => (x.setPending id pr, true)
  | (pr, .dry) => if pr.ready then x.respond env handler id pr else (x.setPending id pr, true)

def processStream (x : Endpoint) (id : Nat) : Endpoint × Bool :=
  let (chunk, fin) := x.readOf id
  let x := x.perform env (.readStream id)
  if chunk = [] ∧ fin = false then (x, true)
  else if isUni id && isClientInitiated id then (x.processUni env id chunk, true)
  else if !isRequestStream id then (x, true)
  else x.processRequest env handler id chunk fin

/-- The streams of the server, and what is written to them first. -/
def serverStreams : List (Nat × Bytes) :=
  let settings := (encodeH3Frame (.settings [(0x01, 0), (0x07, 0)])).getD []
  [(kServerControl, 0x00 :: settings), (kServerQpackEncoder, [0x02]), (kServerQpackDecoder, [0x03])]

def initializeServerStreams (x : Endpoint) : Endpoint :=
  if x.server.initialized then x
  else
    let x := serverStreams.foldl (fun x e => x.perform env (.writeStream e.1 e.2 false)) x
    { x with server := { x.server with initialized := true } }

def processAll : List Nat → Endpoint → Endpoint
  | [], x => x
  | id :: ids, x =>
    match x.processStream env handler id with
    | (x, true) => processAll ids x
    | (x, false) => x

/-- The streams that the peer may have written to. -/
def streamIds (x : Endpoint) : List Nat :=
  (x.run.conn.streams.entries.map Prod.fst).filter fun id =>
    id ∉ [kServerControl, kServerQpackEncoder, kServerQpackDecoder]

def pump (x : Endpoint) : Endpoint :=
  if x.run.conn.state = .handshaking || x.run.conn.faulted then x
  else
    let x := x.initializeServerStreams env
    processAll env handler x.streamIds x

end

inductive Event where
  | datagram (bytes : Bytes)
  | timer
  | closeWithError (errorCode : Nat) (application : Bool) (reason : Bytes) (frameType : Nat)
  | markPeerAddressValidated
  | initiateKeyUpdate
  | pump

def handle (env : Quic.Env) (handler : RequestFn) (x : Endpoint) : Event → Endpoint
  | .datagram bytes => { x with run := x.run.onDatagram env bytes }
  | .timer => { x with run := x.run.onTimer env }
  | .closeWithError errorCode application reason frameType =>
    x.perform env (.close errorCode application reason frameType)
  | .markPeerAddressValidated => x.perform env .markValidated
  | .initiateKeyUpdate => x.perform env .keyUpdate
  | .pump => x.pump env handler

def ofEvents (env : Quic.Env) (handler : RequestFn) (c : Connection) (events : List Event) :
    Endpoint :=
  events.foldl (handle env handler) { run := ⟨c, []⟩ }

end Endpoint

structure Setting where
  env : Quic.Env
  handler : RequestFn
  clientDcid : Bytes
  clientScid : Bytes
  serverScid : Bytes
  localTp : Quic.TransportParameters
  events : List Endpoint.Event

def Setting.run (w : Setting) : Endpoint :=
  .ofEvents w.env w.handler (.create w.env w.clientDcid w.clientScid w.serverScid w.localTp)
    w.events

end Spaznet.Http3
