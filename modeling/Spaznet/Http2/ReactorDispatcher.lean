import Spaznet.Http2.Exchange
import Spaznet.Lib.Replace
import Spaznet.Reactor.Connection

/-!
# The reactor dispatcher

`Http2Connection` as a state machine over the events of one connection. Completions of response
writers run on the IO thread. `writers` has a writer for every request that was dispatched; `trace`
records what is seen on the connection while it is open.
-/

namespace Spaznet.Http2

open List Reactor.BufferedConnection
open Http (Bytes ascii)
open Reactor (IOContext BufferedConnection Socket)

def kPreface : Bytes := ascii "PRI * HTTP/2.0\r\n\r\nSM\r\n\r\n"
def kPrefaceLen : Nat := 24

inductive Phase where
  | preface
  | frameHeader
  | framePayload (header : Frame)
  deriving DecidableEq

/-- The writer of a dispatched request: the response that completed it, and whether the handler has
thrown before that. -/
structure Writer where
  request : Request
  response : Option Response := none
  failed : Bool := false
  deriving DecidableEq

/-- The request is neither answered nor has its handler thrown. -/
def Writer.pending (w : Writer) : Bool := w.response.isNone && !w.failed

structure Env where
  hpack : Hpack
  handler : Handler
  socket : Socket

/-- A handler that gives every request this response, on a socket that takes everything. The header
block of a response is the one of the status 200 and a length of one byte; no header is read. -/
def Env.answering (response : Response) : Env :=
  { hpack := { encodeHeaders := fun _ => [0x88, 0x0f, 0x0d, 0x01, 0x31], decodeHeaders := fun _ => [] }
    handler := fun _ _ => { response := some response }
    socket := fun _ offered => .accepted offered }

def Env.deferring : Env := { Env.answering {} with handler := fun _ _ => {} }

def headersFrame (streamId : Nat) (flags : UInt8) : Frame := { type := .headers, flags, streamId }

structure Http2Connection where
  ctx : IOContext := {}
  conn : BufferedConnection := {}
  buffer : Bytes := []
  phase : Phase := .preface
  closing : Bool := false
  goawaySent : Bool := false
  transcript : Transcript := {}
  writers : List Writer := []
  trace : List Note := []
  deriving DecidableEq

namespace Http2Connection

def waiting (c : Http2Connection) : Nat := c.writers.countP Writer.pending

def onClosed (c : Http2Connection) : Http2Connection := { c with closing := true }

def onConn (f : BufferedConnection → BufferedConnection) (c : Http2Connection) : Http2Connection :=
  let conn := f c.conn
  if conn.closed ∧ ¬ c.conn.closed then { c with conn }.onClosed else { c with conn }

def record (note : Note) (c : Http2Connection) : Http2Connection :=
  { c with trace := c.trace ++ [note] }

def writeFrame (env : Env) (c : Http2Connection) (frame : Frame) : Http2Connection :=
  let c := if c.conn.closed then c else c.record (.wrote frame)
  c.onConn (·.write env.socket frame.serialize)

def sendGoaway (env : Env) (errorCode : Nat) (c : Http2Connection) : Http2Connection :=
  if c.goawaySent then c
  else
    { c with goawaySent := true }.writeFrame env
      (buildGoawayFrame c.transcript.session.lastStreamIdHandled errorCode)

def fatal (env : Env) (errorCode : Nat) (c : Http2Connection) : Http2Connection :=
  let c := c.sendGoaway env errorCode
  { c with closing := true }.onConn (·.closeAfterFlush)

def maxChunk (c : Http2Connection) : Nat :=
  let size := c.transcript.session.peerSettings.maxFrameSize
  if size > 0 then size else kMaxFrameSizeDefault

def onResponseReady (env : Env) (streamId : Nat) (response : Response) (c : Http2Connection) :
    Http2Connection :=
  let c := { c with ctx := c.ctx.decrementActiveRequests }
  if c.closing then c
  else
    let frames := (response.onStream streamId).toFrames env.hpack c.maxChunk
    frames.foldl (writeFrame env) (c.record (.delivered streamId response.body))

def complete (env : Env) (n : Nat) (response : Response) (c : Http2Connection) : Http2Connection :=
  match c.writers[n]? with
  | some { request, response := none, failed } =>
    let c := { c with
      writers := c.writers.set n { request, response := some response, failed } }
    c.onResponseReady env request.streamId response
  | _ => c

def beginDispatch (request : Request) (c : Http2Connection) : Http2Connection :=
  { c with
    ctx := c.ctx.incrementActiveRequests
    writers := c.writers ++ [{ request }] }

def failDispatch (env : Env) (n : Nat) (request : Request) (c : Http2Connection) :
    Http2Connection :=
  let c := { c with
    ctx := c.ctx.decrementActiveRequests
    writers := c.writers.set n { request, failed := true } }
  c.writeFrame env (buildRstStreamFrame request.streamId 0x2)

def dispatchRequest (env : Env) (request : Request) (c : Http2Connection) : Http2Connection :=
  let n := c.writers.length
  let call := env.handler (c.writers.map Writer.request) request
  let c := c.beginDispatch request
  match call.response with
  | some response => c.complete env n response
  | none => if call.throws then c.failDispatch env n request else c

def perform (env : Env) (c : Http2Connection) : Effect → Http2Connection
  | .opened _ => c
  | .settingsAck => c.writeFrame env (buildSettingsFrame ourSettings true)
  | .pong payload => c.writeFrame env (buildPingFrame payload true)
  | .windowUpdate streamId increment =>
    c.writeFrame env (buildWindowUpdateFrame streamId increment)
  | .rstStream streamId errorCode => c.writeFrame env (buildRstStreamFrame streamId errorCode)
  | .handoff request => c.dispatchRequest env request
  | .fatal errorCode => c.fatal env errorCode

def handleFrame (env : Env) (frame : Frame) (c : Http2Connection) : Http2Connection :=
  let effects := c.transcript.effectsOf env.hpack frame
  let c := { c with transcript := c.transcript.receive env.hpack frame }
  effects.foldl (perform env) (c.record (.received frame))

/-- The loop of `try_process`. Every round takes a byte of the buffer at least, so that `fuel` beyond
its length is never used up. -/
def tryProcess (env : Env) : (fuel : Nat) → Http2Connection → Http2Connection
  | 0, c => c
  | fuel + 1, c =>
    if c.closing then c
    else if c.conn.closed then c
    else match c.phase with
      | .preface =>
        if c.buffer.length < kPrefaceLen then c
        else if c.buffer.take kPrefaceLen ≠ kPreface then
          { c with closing := true }.onConn (·.close)
        else
          let c := { c with buffer := c.buffer.drop kPrefaceLen, phase := .frameHeader }
          tryProcess env fuel (c.writeFrame env (buildSettingsFrame ourSettings false))
      | .frameHeader =>
        if c.buffer.length < 9 then c
        else
          let header := Frame.readHeader (c.buffer.take 9)
          let c := { c with buffer := c.buffer.drop 9 }
          if header.length > ourSettings.maxFrameSize then c.fatal env 0x6
          else if header.length = 0 then tryProcess env fuel (c.handleFrame env header)
          else tryProcess env fuel { c with phase := .framePayload header }
      | .framePayload header =>
        if c.buffer.length < header.length then c
        else
          let frame := { header with payload := c.buffer.take header.length }
          let c := { c with buffer := c.buffer.drop header.length, phase := .frameHeader }
          tryProcess env fuel (c.handleFrame env frame)

def onData (env : Env) (data : Bytes) (c : Http2Connection) : Http2Connection :=
  let c := { c with buffer := c.buffer ++ data }
  if c.closing then c else c.tryProcess env (c.buffer.length + 1)

inductive Event where
  | data (bytes : Bytes)
  | fail
  | writable
  | complete (n : Nat) (response : Response)
  deriving DecidableEq

/-- A client sends its preface and these frames. -/
def Event.client (frames : List Frame) : Event :=
  .data (kPreface ++ frames.flatMap Frame.serialize)

def step (env : Env) (c : Http2Connection) : Event → Http2Connection
  | .data bytes => if c.conn.closed then c else c.onData env bytes
  | .fail => c.onConn (·.close)
  | .writable => c.onConn (·.onWritable env.socket)
  | .complete n response => c.complete env n response

def run (env : Env) (ctx : IOContext) (events : List Event) : Http2Connection :=
  Machine.run (step env) { ctx } events

/-! ## Writing -/

/-- Frames are written as long as the connection is open. The requests do not notice. -/
structure Writes (frames : List Frame) (c c' : Http2Connection) : Prop where
  ctx : c'.ctx = c.ctx
  writers : c'.writers = c.writers
  transcript : c'.transcript = c.transcript
  closing : c.closing = true → c'.closing = true
  closed : c.conn.closed = true → c'.conn.closed = true
  wrote : ∃ written : List Frame, written.Sublist frames ∧
    c'.trace = c.trace ++ written.map Note.wrote ∧
    c'.conn.written = c.conn.written ++ written.map Frame.serialize

namespace Writes

variable {frames frames' : List Frame} {c c' c'' : Http2Connection}

theorem refl (frames : List Frame) (c : Http2Connection) : Writes frames c c :=
  ⟨rfl, rfl, rfl, id, id, [], nil_sublist _, (append_nil _).symm,
    (append_nil _).symm⟩

theorem trans (h : Writes frames c c') (h' : Writes frames' c' c'') :
    Writes (frames ++ frames') c c'' := by
  obtain ⟨written, hsub, htrace, hwritten⟩ := h.wrote
  obtain ⟨written', hsub', htrace', hwritten'⟩ := h'.wrote
  refine ⟨h'.ctx.trans h.ctx, h'.writers.trans h.writers, h'.transcript.trans h.transcript,
    fun hc => h'.closing (h.closing hc), fun hc => h'.closed (h.closed hc),
    written ++ written', hsub.append hsub', ?_, ?_⟩
  · rw [htrace', htrace, map_append, append_assoc]
  · rw [hwritten', hwritten, map_append, append_assoc]

end Writes

variable {env : Env} {c : Http2Connection} {f : BufferedConnection → BufferedConnection}

theorem onConn_eq (f : BufferedConnection → BufferedConnection) (c : Http2Connection) :
    c.onConn f =
      { c with conn := f c.conn, closing := c.closing || (f c.conn).closed && !c.conn.closed } := by
  unfold onConn onClosed
  dsimp only
  split
  next h =>
    rw [h.1, Bool.not_eq_true] at *
    rw [h.2, Bool.not_false, Bool.and_true, Bool.or_true]
  next h =>
    have hfalse : ((f c.conn).closed && !c.conn.closed) = false := by
      rw [Bool.eq_false_iff, ne_eq, Bool.and_eq_true, Bool.not_eq_true']
      rwa [Bool.not_eq_true] at h
    rw [hfalse, Bool.or_false]

theorem writes_onConn (hclosed : c.conn.closed = true → (f c.conn).closed = true)
    (hwritten : (f c.conn).written = c.conn.written) : Writes [] c (c.onConn f) := by
  rw [onConn_eq]
  refine ⟨rfl, rfl, rfl, fun h => ?_, hclosed, [], nil_sublist _, (append_nil _).symm, ?_⟩
  · dsimp only
    rw [h, Bool.true_or]
  · dsimp only
    rw [hwritten, map_nil, append_nil]

theorem writes_writeFrame (env : Env) (c : Http2Connection) (frame : Frame) :
    Writes [frame] c (c.writeFrame env frame) := by
  unfold writeFrame
  split
  next hclosed =>
    rw [onConn_eq, write_of_closed hclosed]
    refine ⟨rfl, rfl, rfl, fun h => ?_, id, [], nil_sublist _, (append_nil _).symm,
      (append_nil _).symm⟩
    rw [h, Bool.true_or]
  next hopen =>
    rw [Bool.not_eq_true] at hopen
    rw [onConn_eq]
    refine ⟨rfl, rfl, rfl, fun h => ?_, fun h => ?_, [frame], List.Sublist.refl _, rfl, ?_⟩
    · dsimp only [record]
      rw [h, Bool.true_or]
    · cases hopen.symm.trans h
    · exact written_write hopen (cons_ne_nil _ _)

theorem writes_foldl (env : Env) (frames : List Frame) (c : Http2Connection) :
    Writes frames c (frames.foldl (writeFrame env) c) := by
  induction frames generalizing c with
  | nil => exact .refl _ c
  | cons frame frames ih => exact (writes_writeFrame env c frame).trans (ih _)

theorem writes_close : Writes [] c (c.onConn (·.close)) :=
  writes_onConn (fun h => by rwa [close_of_closed h])
    written_close

theorem writes_closeAfterFlush : Writes [] c (c.onConn (·.closeAfterFlush)) :=
  writes_onConn (fun h => by rwa [closeAfterFlush_of_closed h])
    written_closeAfterFlush

theorem writes_onWritable : Writes [] c (c.onConn (·.onWritable env.socket)) :=
  writes_onConn (fun h => by rwa [onWritable_of_closed h])
    written_onWritable

theorem writes_closing : Writes [] c { c with closing := true } :=
  ⟨rfl, rfl, rfl, fun _ => rfl, id, [], nil_sublist _, (append_nil _).symm,
    (append_nil _).symm⟩

theorem writes_fatal (env : Env) (errorCode : Nat) (c : Http2Connection) :
    Writes [buildGoawayFrame c.transcript.session.lastStreamIdHandled errorCode] c
        (c.fatal env errorCode) ∧
      (c.fatal env errorCode).closing = true := by
  have hgoaway : Writes [buildGoawayFrame c.transcript.session.lastStreamIdHandled errorCode] c
      (c.sendGoaway env errorCode) := by
    unfold sendGoaway
    split
    · exact .refl _ c
    · exact { writes_writeFrame env { c with goawaySent := true } _ with }
  refine ⟨(hgoaway.trans writes_closing).trans writes_closeAfterFlush, ?_⟩
  unfold fatal
  rw [onConn_eq]
  rfl

/-! ## Control frames -/

/-- A frame without DATA, or none, is written. -/
def Quiet (c c' : Http2Connection) : Prop :=
  ∃ frames : List Frame, (∀ frame ∈ frames, frame.type ≠ .data) ∧ Writes frames c c'

theorem Writes.quiet (h : Writes [frame] c c') (hframe : frame.type ≠ .data) : Quiet c c' :=
  ⟨[frame], fun f hf => by rwa [mem_singleton.mp hf], h⟩

theorem Writes.silent (h : Writes [] c c') : Quiet c c' :=
  ⟨[], forall_mem_nil _, h⟩

theorem quiet_moved (buffer : Bytes) (phase : Phase) : Quiet c { c with buffer, phase } :=
  Writes.silent ⟨rfl, rfl, rfl, id, id, [], nil_sublist _, (append_nil _).symm,
    (append_nil _).symm⟩

theorem quiet_fatal (env : Env) (errorCode : Nat) (c : Http2Connection) :
    Quiet c (c.fatal env errorCode) :=
  (writes_fatal env errorCode c).1.quiet nofun

/-- The effects of a frame other than the dispatch of a request are quiet. -/
theorem quiet_perform (env : Env) (c : Http2Connection) (h : ∀ request, effect ≠ .handoff request) :
    Quiet c (c.perform env effect) := by
  cases effect with
  | opened => exact (Writes.refl [] c).silent
  | settingsAck | pong | windowUpdate | rstStream => exact (writes_writeFrame env c _).quiet nofun
  | handoff request => exact absurd rfl (h request)
  | fatal errorCode => exact quiet_fatal env errorCode c

/-! ## Rules for runs -/

section Rules

variable {I : Http2Connection → Prop} (hquiet : ∀ c c', Quiet c c' → I c → I c')

include hquiet

/-- What the dispatch of a request keeps, the effects of a frame keep. -/
theorem perform_rule (hdispatch : ∀ c request, I c → I (c.dispatchRequest env request))
    (effects : List Effect) (h : I c) : I (effects.foldl (perform env) c) := by
  induction effects generalizing c with
  | nil => exact h
  | cons effect effects ih =>
    apply ih
    cases effect with
    | handoff request => exact hdispatch c request h
    | opened | settingsAck | pong | windowUpdate | rstStream | fatal =>
      exact hquiet _ _ (quiet_perform env c nofun) h

variable (hframe : ∀ c frame, c.closing = false → I c → I (c.handleFrame env frame))

include hframe

theorem tryProcess_rule (fuel : Nat) (h : I c) : I (c.tryProcess env fuel) := by
  induction fuel generalizing c with
  | zero => exact h
  | succ fuel ih =>
    unfold tryProcess
    split
    · exact h
    next hclosing =>
    rw [Bool.not_eq_true] at hclosing
    split
    · exact h
    split
    · split
      · exact h
      · split
        · exact hquiet _ _ writes_close.silent (hquiet _ _ writes_closing.silent h)
        · apply ih
          apply hquiet _ _ ((writes_writeFrame env _ _).quiet (by decide))
          exact hquiet _ _ (quiet_moved _ _) h
    · split
      · exact h
      · have hmoved := hquiet _ _ (quiet_moved (c.buffer.drop 9) c.phase) h
        dsimp only
        split
        · exact hquiet _ _ (quiet_fatal env _ _) hmoved
        split
        · exact ih (hframe _ _ hclosing hmoved)
        · exact ih (hquiet _ _ (quiet_moved _ _) h)
    next header hphase =>
      split
      · exact h
      · exact ih (hframe _ _ hclosing (hquiet _ _ (quiet_moved _ _) h))

theorem step_rule
    (hcomplete : ∀ n response, event = .complete n response → I (c.complete env n response))
    (h : I c) : I (step env c event) := by
  cases event with
  | data bytes =>
    unfold step
    dsimp only
    split
    · exact h
    have hmoved := hquiet _ _ (quiet_moved (c.buffer ++ bytes) c.phase) h
    unfold onData
    dsimp only
    split
    · exact hmoved
    · exact tryProcess_rule hquiet hframe _ hmoved
  | fail => exact hquiet _ _ writes_close.silent h
  | writable => exact hquiet _ _ writes_onWritable.silent h
  | complete n response => exact hcomplete n response rfl

end Rules

/-! ## The dispatcher as an exchange -/

def exchange (c : Http2Connection) : Exchange :=
  { transcript := c.transcript
    requests := c.writers.map Writer.request
    finished := c.closing
    trace := c.trace }

open Exchange (Emitted Emits Performs Moves)

theorem emitted_of_quiet {frames written : List Frame}
    (hdata : ∀ frame ∈ frames, frame.type ≠ .data) (hsub : written.Sublist frames) :
    Emitted (written.map .wrote) := by
  have hall : ∀ frame ∈ written, frame.type ≠ .data := fun frame h => hdata frame (hsub.subset h)
  clear hsub
  induction written with
  | nil => exact .nil
  | cons frame written ih =>
    exact .write (hall frame mem_cons_self) (ih fun f h => hall f (mem_cons_of_mem _ h))

theorem emits_of_quiet (h : Quiet c c') : Emits c.exchange c'.exchange := by
  obtain ⟨frames, hdata, hwrites⟩ := h
  obtain ⟨written, hsub, htrace, -⟩ := hwrites.wrote
  exact ⟨hwrites.transcript, congrArg (List.map Writer.request) hwrites.writers, hwrites.closing,
    _, emitted_of_quiet hdata hsub, htrace⟩

theorem emits_deliver (env : Env) (c : Http2Connection) {frames : List Frame}
    (hstream : ∀ frame ∈ frames, frame.streamId = streamId)
    (hflow : (frames.map Frame.flowLength).sum ≤ body.length) :
    Emits c.exchange
      (frames.foldl (writeFrame env) (c.record (.delivered streamId body))).exchange := by
  have hwrites := writes_foldl env frames (c.record (.delivered streamId body))
  obtain ⟨written, hsub, htrace, -⟩ := hwrites.wrote
  have hle : (written.map Frame.flowLength).sum ≤ (frames.map Frame.flowLength).sum :=
    (hsub.map _).sum_le_sum fun _ _ => Nat.zero_le _
  have hemitted : Emitted (.delivered streamId body :: written.map .wrote ++ []) :=
    .deliver (fun frame hframe => hstream frame (hsub.subset hframe)) (hle.trans hflow) .nil
  refine ⟨hwrites.transcript, congrArg (List.map Writer.request) hwrites.writers, hwrites.closing,
    _, hemitted, ?_⟩
  refine htrace.trans ?_
  rw [record, append_nil, append_assoc]
  rfl

theorem emits_onResponseReady (env : Env) (streamId : Nat) (response : Response)
    (c : Http2Connection) : Emits c.exchange (c.onResponseReady env streamId response).exchange := by
  unfold onResponseReady
  dsimp only
  split
  · exact .refl _
  · exact emits_deliver env { c with ctx := c.ctx.decrementActiveRequests }
      (fun frame hframe => streamId_of_mem_toFrames hframe) (flowLength_toFrames _ _ _)

theorem exchange_set (hn : c.writers[n]? = some old) (new : Writer) (h : new.request = old.request)
    (ctx : IOContext) :
    exchange { c with ctx, writers := c.writers.set n new } = c.exchange := by
  unfold exchange
  rw [Replace.map_set_eq Writer.request hn h]

theorem emits_complete (env : Env) (n : Nat) (response : Response) (c : Http2Connection) :
    Emits c.exchange (c.complete env n response).exchange := by
  unfold complete
  split
  next request failed hn =>
    rw [← exchange_set hn { request, response := some response, failed } rfl c.ctx]
    exact emits_onResponseReady env _ _ _
  · exact .refl _

theorem getElem?_beginDispatch (request : Request) (c : Http2Connection) :
    (c.beginDispatch request).writers[c.writers.length]? = some { request } :=
  getElem?_concat_length

theorem emits_dispatchRequest (env : Env) (request : Request) (c : Http2Connection) :
    Emits (c.beginDispatch request).exchange (c.dispatchRequest env request).exchange := by
  unfold dispatchRequest
  dsimp only
  split
  · exact emits_complete env _ _ _
  split
  · rw [← exchange_set (getElem?_beginDispatch request c) { request, failed := true } rfl
      (c.beginDispatch request).ctx.decrementActiveRequests]
    exact emits_of_quiet ((writes_writeFrame env _ _).quiet nofun)
  · exact .refl _

theorem performs_perform (env : Env) (c : Http2Connection) (effect : Effect) :
    Performs [effect] c.exchange (c.perform env effect).exchange := by
  by_cases hhandoff : ∃ request, effect = .handoff request
  · obtain ⟨request, rfl⟩ := hhandoff
    obtain ⟨htranscript, hrequests, hfinished, htrace⟩ := emits_dispatchRequest env request c
    exact ⟨htranscript, hrequests.trans map_append, hfinished, nofun, htrace⟩
  have hne := not_exists.mp hhandoff
  refine .of_emits (fun hfatal => ?_) (handoffs_cons_of_ne hne [])
    (emits_of_quiet (quiet_perform env c hne))
  cases effect with
  | fatal errorCode => exact (writes_fatal env errorCode c).2
  | _ => cases hfatal

theorem performs_foldl (env : Env) (effects : List Effect) (c : Http2Connection) :
    Performs effects c.exchange (effects.foldl (perform env) c).exchange := by
  induction effects generalizing c with
  | nil => exact .nil _
  | cons effect effects ih => exact (performs_perform env c effect).cons (ih _)

theorem moves_handleFrame (env : Env) (frame : Frame) (hclosing : c.closing = false) :
    Moves env.hpack c.exchange (c.handleFrame env frame).exchange :=
  .of_performs frame hclosing (performs_foldl env (c.transcript.effectsOf env.hpack frame)
    (record (.received frame) { c with transcript := c.transcript.receive env.hpack frame }))

theorem moves_step (event : Event) (h : Moves env.hpack e c.exchange) :
    Moves env.hpack e (step env c event).exchange := by
  apply step_rule (I := fun c => Moves env.hpack e c.exchange) _ _ _ h
  · exact fun c c' hquiet h => h.tail (.emit (emits_of_quiet hquiet))
  · exact fun c frame hclosing h => h.trans (moves_handleFrame env frame hclosing)
  · exact fun n response _ => h.tail (.emit (emits_complete env n response c))

theorem moves_run (env : Env) (ctx : IOContext) (events : List Event) :
    Moves env.hpack {} (run env ctx events).exchange :=
  Machine.run_induction (I := fun c : Http2Connection => Moves env.hpack {} c.exchange)
    (fun _ event h => moves_step event h) .refl events

end Http2Connection

end Spaznet.Http2
