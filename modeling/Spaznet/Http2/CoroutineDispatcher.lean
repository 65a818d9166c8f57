import Spaznet.Http2.ReactorDispatcher

/-!
# The coroutine dispatcher

`serve` and the coroutines that `dispatch_request` runs in, as a state machine over what resumes
them. The frames are recorded in `trace` as they are queued for the writer.
-/

namespace Spaznet.Http2

open List
open Http (Bytes)
open Reactor (IOContext)

/-- How far `dispatch_request` has come. -/
inductive Stage where
  | scheduled
  | awaiting
  /-- The writer was completed and the coroutine is about to be resumed. -/
  | ready (response : Response)
  | finished
  deriving DecidableEq

structure Dispatch where
  request : Request
  stage : Stage := .scheduled
  deriving DecidableEq

structure ConnState where
  ctx : IOContext := {}
  buffer : Bytes := []
  phase : Phase := .preface
  serving : Bool := true
  socketClosed : Bool := false
  goawaySent : Bool := false
  transcript : Transcript := {}
  dispatches : List Dispatch := []
  called : List Request := []
  trace : List Note := []
  deriving DecidableEq

namespace ConnState

def record (note : Note) (c : ConnState) : ConnState := { c with trace := c.trace ++ [note] }

def enqueueFrame (c : ConnState) (frame : Frame) : ConnState :=
  c.record (.wrote { frame with length := frame.payload.length })

def goawayPayload (lastStream errorCode : Nat) : Bytes :=
  encodeUint32Be (lastStream % 2 ^ 31) ++ encodeUint32Be errorCode

def sendGoaway (errorCode : Nat) (c : ConnState) : ConnState :=
  if c.goawaySent then c
  else
    { c with goawaySent := true }.enqueueFrame
      { type := .goaway
        payload := goawayPayload c.transcript.session.lastStreamIdHandled errorCode }

def loopEnd (c : ConnState) : ConnState := { c.sendGoaway 0 with serving := false }

/-- A WINDOW_UPDATE frame of the wrong length leaves the socket open. -/
def fatal (frame : Frame) (errorCode : Nat) (c : ConnState) : ConnState :=
  let closes := !(frame.type = .windowUpdate && frame.payload.length ≠ 4)
  let c := c.sendGoaway errorCode
  { c with socketClosed := c.socketClosed || closes }.loopEnd

def perform (frame : Frame) (c : ConnState) : Effect → ConnState
  | .opened _ => c
  | .settingsAck => c.enqueueFrame { type := .settings, flags := Flags.ack }
  | .pong payload => c.enqueueFrame { type := .ping, flags := Flags.ack, payload }
  | .windowUpdate streamId increment =>
    c.enqueueFrame (buildWindowUpdateFrame streamId increment)
  | .rstStream streamId errorCode => c.enqueueFrame (buildRstStreamFrame streamId errorCode)
  | .handoff request => { c with dispatches := c.dispatches ++ [{ request }] }
  | .fatal errorCode => c.fatal frame errorCode

def handleFrame (hpack : Hpack) (frame : Frame) (c : ConnState) : ConnState :=
  let effects := c.transcript.effectsOf hpack frame
  let c := { c with transcript := c.transcript.receive hpack frame }
  effects.foldl (perform frame) (c.record (.received frame))

/-- `serve` as far as the bytes go that were read. Every round takes a byte at least, so that `fuel`
beyond their number is never used up. -/
def serve (hpack : Hpack) : (fuel : Nat) → ConnState → ConnState
  | 0, c => c
  | fuel + 1, c =>
    if !c.serving then c
    else match c.phase with
      | .preface =>
        if c.buffer.length < kPrefaceLen then c
        else if c.buffer.take kPrefaceLen ≠ kPreface then
          { c with socketClosed := true, serving := false }
        else
          let c := { c with buffer := c.buffer.drop kPrefaceLen, phase := .frameHeader }
          serve hpack fuel (c.enqueueFrame (buildSettingsFrame ourSettings false))
      | .frameHeader =>
        if c.buffer.length < 9 then c
        else
          let header := Frame.readHeader (c.buffer.take 9)
          let c := { c with buffer := c.buffer.drop 9 }
          if header.length > ourSettings.maxFrameSize then (c.sendGoaway 0x6).loopEnd
          else if header.length = 0 then serve hpack fuel (c.handleFrame hpack header)
          else serve hpack fuel { c with phase := .framePayload header }
      | .framePayload header =>
        if c.buffer.length < header.length then c
        else
          let frame := { header with payload := c.buffer.take header.length }
          let c := { c with buffer := c.buffer.drop header.length, phase := .frameHeader }
          serve hpack fuel (c.handleFrame hpack frame)

def onEof (c : ConnState) : ConnState :=
  if !c.serving then c
  else match c.phase with
    | .preface => { c with socketClosed := true, serving := false }
    | _ => c.loopEnd

def setStage (n : Nat) (request : Request) (stage : Stage) (c : ConnState) : ConnState :=
  { c with dispatches := c.dispatches.set n { request, stage } }

def maxChunk (c : ConnState) : Nat :=
  let size := c.transcript.session.peerSettings.maxFrameSize
  if size > 0 then size else kMaxFrameSizeDefault

/-- The end of `dispatch_request`: the frames of the response are queued. -/
def respond (hpack : Hpack) (n : Nat) (request : Request) (response : Response) (c : ConnState) :
    ConnState :=
  let frames := (response.onStream request.streamId).toFrames hpack c.maxChunk
  let c := frames.foldl enqueueFrame (c.record (.delivered request.streamId response.body))
  { c with ctx := c.ctx.decrementActiveRequests }.setStage n request .finished

def fail (n : Nat) (request : Request) (c : ConnState) : ConnState :=
  let c := c.enqueueFrame (buildRstStreamFrame request.streamId 0x2)
  { c with ctx := c.ctx.decrementActiveRequests }.setStage n request .finished

/-- `dispatch_request` up to its suspension. -/
def start (env : Env) (n : Nat) (request : Request) (c : ConnState) : ConnState :=
  let call := env.handler c.called request
  let c := { c with
    ctx := c.ctx.incrementActiveRequests
    called := c.called ++ [request] }
  if call.throws then c.fail n request
  else match call.response with
    | some response => c.respond env.hpack n request response
    | none => c.setStage n request .awaiting

inductive Resumption where
  | read (bytes : Bytes)
  | eof
  | start (n : Nat)
  | complete (n : Nat) (response : Response)
  /-- The context resumes a dispatch whose writer was completed. -/
  | resume (n : Nat)
  deriving DecidableEq

def step (env : Env) (c : ConnState) : Resumption → ConnState
  | .read bytes =>
    if !c.serving then c
    else
      let c := { c with buffer := c.buffer ++ bytes }
      c.serve env.hpack (c.buffer.length + 1)
  | .eof => c.onEof
  | .start n =>
    match c.dispatches[n]? with
    | some { request, stage := .scheduled } => c.start env n request
    | _ => c
  | .complete n response =>
    match c.dispatches[n]? with
    | some { request, stage := .awaiting } => c.setStage n request (.ready response)
    | _ => c
  | .resume n =>
    match c.dispatches[n]? with
    | some { request, stage := .ready response } => c.respond env.hpack n request response
    | _ => c

def run (env : Env) (ctx : IOContext) (resumptions : List Resumption) : ConnState :=
  Machine.run (step env) { ctx } resumptions

/-! ## The dispatcher as an exchange -/

def exchange (c : ConnState) : Exchange :=
  { transcript := c.transcript
    requests := c.dispatches.map Dispatch.request
    finished := !c.serving
    trace := c.trace }

open Exchange (Emitted Emits Performs Moves)

variable {c : ConnState} {hpack : Hpack}

theorem emits_enqueueFrame (c : ConnState) (frame : Frame) (hdata : frame.type ≠ .data) :
    Emits c.exchange (c.enqueueFrame frame).exchange :=
  ⟨rfl, rfl, id, [.wrote { frame with length := frame.payload.length }], .write hdata .nil, rfl⟩

theorem emits_sendGoaway (errorCode : Nat) (c : ConnState) :
    Emits c.exchange (c.sendGoaway errorCode).exchange := by
  unfold sendGoaway
  split
  · exact .refl _
  obtain ⟨htranscript, hrequests, hfinished, htrace⟩ := emits_enqueueFrame
    { c with goawaySent := true } { type := .goaway, payload := goawayPayload _ errorCode } nofun
  exact ⟨htranscript, hrequests, hfinished, htrace⟩

theorem emits_loopEnd (c : ConnState) : Emits c.exchange c.loopEnd.exchange := by
  obtain ⟨htranscript, hrequests, -, htrace⟩ := emits_sendGoaway 0 c
  exact ⟨htranscript, hrequests, fun _ => rfl, htrace⟩

section
variable (frame : Frame)

theorem emits_fatal (errorCode : Nat) (c : ConnState) :
    Emits c.exchange (c.fatal frame errorCode).exchange := by
  have hgoaway := emits_sendGoaway errorCode c
  have hend := emits_loopEnd { c.sendGoaway errorCode with
    socketClosed := (c.sendGoaway errorCode).socketClosed ||
      !(frame.type = .windowUpdate && frame.payload.length ≠ 4) }
  exact hgoaway.trans hend

theorem performs_perform (c : ConnState) (effect : Effect) :
    Performs [effect] c.exchange (c.perform frame effect).exchange := by
  cases effect with
  | opened => exact .of_emits nofun rfl (.refl _)
  | settingsAck | pong | windowUpdate | rstStream =>
    exact .of_emits nofun rfl (emits_enqueueFrame c _ nofun)
  | handoff request =>
    exact ⟨rfl, map_append, id, nofun, [], .nil, (append_nil _).symm⟩
  | fatal errorCode => exact .of_emits (fun _ => rfl) rfl (emits_fatal frame errorCode c)

theorem performs_foldl (effects : List Effect) (c : ConnState) :
    Performs effects c.exchange (effects.foldl (perform frame) c).exchange := by
  induction effects generalizing c with
  | nil => exact .nil _
  | cons effect effects ih => exact (performs_perform frame c effect).cons (ih _)

theorem moves_handleFrame (hserving : c.serving = true) :
    Moves hpack c.exchange (c.handleFrame hpack frame).exchange :=
  .of_performs frame (congrArg not hserving) (performs_foldl frame
    (c.transcript.effectsOf hpack frame)
    (record (.received frame) { c with transcript := c.transcript.receive hpack frame }))

end

theorem trace_foldl_enqueueFrame (frames : List Frame) (c : ConnState) :
    frames.foldl enqueueFrame c = { c with
      trace := c.trace ++
        (frames.map fun frame => { frame with length := frame.payload.length }).map .wrote } := by
  induction frames generalizing c with
  | nil =>
    rw [foldl_nil, map_nil, map_nil, append_nil]
  | cons frame frames ih =>
    rw [foldl_cons, ih, enqueueFrame, record]
    rw [append_assoc]
    rfl

theorem requests_setStage (hn : c.dispatches[n]? = some { request, stage }) :
    (c.dispatches.set n { request, stage := stage' }).map Dispatch.request =
      c.dispatches.map Dispatch.request :=
  Replace.map_set_eq Dispatch.request hn rfl

theorem emits_respond (response : Response) (hn : c.dispatches[n]? = some { request, stage }) :
    Emits c.exchange (c.respond hpack n request response).exchange := by
  unfold respond
  dsimp only
  rw [trace_foldl_enqueueFrame]
  set frames := (response.onStream request.streamId).toFrames hpack c.maxChunk with hframes
  have hstream : ∀ frame ∈ frames.map fun frame => { frame with length := frame.payload.length },
      frame.streamId = request.streamId := by
    intro frame hframe
    obtain ⟨frame', hframe', rfl⟩ := mem_map.mp hframe
    exact streamId_of_mem_toFrames hframe'
  have hflow : ((frames.map fun frame => { frame with length := frame.payload.length }).map
      Frame.flowLength).sum ≤ response.body.length := by
    rw [map_map]
    exact flowLength_toFrames hpack c.maxChunk (response.onStream request.streamId)
  refine ⟨rfl, requests_setStage hn, id, _, .deliver hstream hflow .nil, ?_⟩
  rw [append_nil]
  exact append_assoc _ _ _

theorem emits_fail (hn : c.dispatches[n]? = some { request, stage }) :
    Emits c.exchange (c.fail n request).exchange := by
  obtain ⟨htranscript, -, hfinished, htrace⟩ :=
    emits_enqueueFrame c (buildRstStreamFrame request.streamId 0x2) nofun
  exact ⟨htranscript, requests_setStage hn, hfinished, htrace⟩

theorem emits_setStage (stage' : Stage) (hn : c.dispatches[n]? = some { request, stage }) :
    Emits c.exchange (c.setStage n request stage').exchange :=
  ⟨rfl, requests_setStage hn, id, [], .nil, (append_nil _).symm⟩

theorem emits_start (env : Env) (hn : c.dispatches[n]? = some { request, stage }) :
    Emits c.exchange (c.start env n request).exchange := by
  unfold start
  dsimp only
  split
  · exact emits_fail (c := { c with
      called := c.called ++ [request] }) hn
  split
  · exact emits_respond (c := { c with
      ctx := c.ctx.incrementActiveRequests
      called := c.called ++ [request] }) _ hn
  · exact emits_setStage (c := { c with
      called := c.called ++ [request] }) _ hn

end ConnState

end Spaznet.Http2
