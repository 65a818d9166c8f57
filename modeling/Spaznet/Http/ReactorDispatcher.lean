import Spaznet.Http.Service
import Spaznet.Lib.Machine
import Spaznet.Lib.Replace
import Spaznet.Reactor.Connection

/-!
# The reactor dispatcher

`Http1Connection` as a state machine over the events of one connection: bytes were read, the
connection failed or ended, the socket became writable, a deferred response writer was completed.
Completions run on the IO thread. `writers` has a writer for every request that was dispatched, and
`trace` records the dispatches and answers in their order.
-/

namespace Spaznet.Http

open Ascii Reactor

inductive Phase where
  | readingRequest
  | dispatching
  deriving DecidableEq

/-- The writer of a dispatched request, and the response that completed it. -/
structure Writer where
  request : HTTPRequest
  response : Option HTTPResponse := none
  deriving DecidableEq

inductive Action where
  | dispatch (n : Nat)
  | answer (n : Nat)
  deriving DecidableEq

structure Http1Connection where
  ctx : IOContext := {}
  conn : BufferedConnection := {}
  buffer : Bytes := []
  phase : Phase := .readingRequest
  closing : Bool := false
  dispatchCallActive : Bool := false
  writers : List Writer := []
  trace : List Action := []
  deriving DecidableEq

/-- What a connection runs in: the hash tables, the handler and the socket. -/
structure Env where
  tables : HashTables
  handler : Handler
  socket : Socket

/-- The order of a new table. -/
abbrev Env.order (env : Env) : HashOrder := env.tables.order 0

/-- A handler that completes no writer, on a socket that takes everything. -/
def Env.deferring : Env :=
  { tables := .fixed .newestFirst
    handler := fun _ _ => {}
    socket := fun _ offered => .accepted offered }

namespace Http1Connection

def countDown (c : Http1Connection) : Http1Connection :=
  { c with ctx := c.ctx.decrementActiveRequests, phase := .readingRequest }

def onClosed (c : Http1Connection) : Http1Connection :=
  let c := if c.phase = .dispatching then c.countDown else c
  { c with closing := true }

/-- An operation of the connection below. If it closes it, `on_closed` runs as its last step. -/
def onConn (f : BufferedConnection → BufferedConnection) (c : Http1Connection) : Http1Connection :=
  let conn := f c.conn
  if conn.closed ∧ ¬ c.conn.closed then { c with conn }.onClosed else { c with conn }

def sendErrorAndClose (env : Env) (statusCode : Int) (reason : Bytes) (c : Http1Connection) :
    Http1Connection :=
  let c := { c with closing := true }
  (c.onConn (·.write env.socket (errorBytes env.order statusCode reason))).onConn
    (·.closeAfterFlush)

/-- `restart` is `try_process`, which goes on with what is buffered behind a deferred response. -/
def onResponseReady (env : Env) (restart : Http1Connection → Http1Connection)
    (request : HTTPRequest) (response : HTTPResponse) (c : Http1Connection) : Http1Connection :=
  let c := c.countDown
  if c.closing then c
  else
    let c := c.onConn (·.write env.socket (answerBytes env.order request response))
    if !request.shouldKeepAlive then { c with closing := true }.onConn (·.closeAfterFlush)
    else if !c.dispatchCallActive then restart c
    else c

/-- `ResponseWriter::complete`: the first call for a writer delivers, later ones are ignored. -/
def complete (env : Env) (restart : Http1Connection → Http1Connection) (n : Nat)
    (response : HTTPResponse) (c : Http1Connection) : Http1Connection :=
  match c.writers[n]? with
  | some { request, response := none } =>
    let c := { c with
      writers := c.writers.set n { request, response := some response }
      trace := c.trace ++ [Action.answer n] }
    c.onResponseReady env restart request response
  | _ => c

/-- The request is taken off the buffer and its writer exists. -/
def beginDispatch (request : HTTPRequest) (bytesConsumed : Nat) (c : Http1Connection) :
    Http1Connection :=
  { c with
    buffer := c.buffer.drop bytesConsumed
    phase := .dispatching
    ctx := c.ctx.incrementActiveRequests
    dispatchCallActive := true
    writers := c.writers ++ [{ request }]
    trace := c.trace ++ [.dispatch c.writers.length] }

/-- The call of the handler. A response that it completes inside the call restarts nothing. -/
def callHandler (env : Env) (call : HandlerCall) (c : Http1Connection) : Http1Connection :=
  let c :=
    match call.response with
    | some response => c.complete env id (c.writers.length - 1) response
    | none => c
  { c with dispatchCallActive := false }

def abandon (c : Http1Connection) : Http1Connection :=
  let c := if c.phase = .dispatching then c.countDown else c
  { c with closing := true }.onConn (·.close)

/-- The loop of `try_process`. Every round takes a byte of the buffer at least, so that `fuel` beyond
its length is never used up. -/
def tryProcess (env : Env) : (fuel : Nat) → Http1Connection → Http1Connection
  | 0, c => c
  | fuel + 1, c =>
    if c.phase ≠ .readingRequest ∨ c.closing then c
    else if c.conn.closed then c
    else match parseRequest env.order c.buffer with
      | .incomplete =>
        if c.buffer.length ≥ kMaxRequestBytes then
          c.sendErrorAndClose env 400 (ascii "Bad Request")
        else c
      | .error => c.sendErrorAndClose env 400 (ascii "Bad Request")
      | .success (request, bytesConsumed) =>
        if bytesConsumed > c.buffer.length then { c with closing := true }.onConn (·.close)
        else
          let call := env.handler (c.writers.map Writer.request) request
          let c := (c.beginDispatch request bytesConsumed).callHandler env call
          if call.throws then c.abandon else tryProcess env fuel c

def process (env : Env) (c : Http1Connection) : Http1Connection :=
  c.tryProcess env (c.buffer.length + 1)

def onData (env : Env) (data : Bytes) (c : Http1Connection) : Http1Connection :=
  let c := { c with buffer := c.buffer ++ data }
  if c.closing ∨ c.phase ≠ .readingRequest then c else c.process env

def start (env : Env) (ctx : IOContext) (initialBuffer : Bytes) : Http1Connection :=
  let c : Http1Connection := { ctx, buffer := initialBuffer }
  if initialBuffer ≠ [] then c.process env else c

inductive Event where
  | data (bytes : Bytes)
  /-- The peer has ended the stream, or the socket reported an error. -/
  | fail
  | writable
  | complete (n : Nat) (response : HTTPResponse)
  deriving DecidableEq

/-- What `on_readable`, `on_writable`, `on_error` and a deferred completion do. -/
def step (env : Env) (c : Http1Connection) : Event → Http1Connection
  | .data bytes => if c.conn.closed then c else c.onData env bytes
  | .fail => c.onConn (·.close)
  | .writable => c.onConn (·.onWritable env.socket)
  | .complete n response => c.complete env (process env) n response

def run (env : Env) (ctx : IOContext) (initialBuffer : Bytes) (events : List Event) :
    Http1Connection :=
  Machine.run (step env) (start env ctx initialBuffer) events

/-! ## What the parts leave alone -/

variable {env : Env} {c : Http1Connection} {f : BufferedConnection → BufferedConnection}

@[simp] theorem conn_countDown : c.countDown.conn = c.conn := by dsimp only [countDown]

@[simp] theorem buffer_countDown : c.countDown.buffer = c.buffer := by dsimp only [countDown]

@[simp] theorem writers_countDown : c.countDown.writers = c.writers := by dsimp only [countDown]

@[simp] theorem trace_countDown : c.countDown.trace = c.trace := by dsimp only [countDown]

@[simp] theorem closing_countDown : c.countDown.closing = c.closing := by dsimp only [countDown]

@[simp] theorem phase_countDown : c.countDown.phase = .readingRequest := rfl

theorem onClosed_eq (c : Http1Connection) :
    ∃ ctx, c.onClosed = { c with ctx, phase := .readingRequest, closing := true } := by
  unfold onClosed
  split
  · exact ⟨c.ctx.decrementActiveRequests, rfl⟩
  next h =>
    have hphase : c.phase = .readingRequest := by
      cases hcase : c.phase with
      | readingRequest => rfl
      | dispatching => exact absurd hcase h
    exact ⟨c.ctx, by rw [← hphase]⟩

@[simp] theorem conn_onClosed : c.onClosed.conn = c.conn := by
  obtain ⟨ctx, h⟩ := onClosed_eq c
  rw [h]

@[simp] theorem phase_onClosed : c.onClosed.phase = .readingRequest := by
  obtain ⟨ctx, h⟩ := onClosed_eq c
  rw [h]

@[simp] theorem closing_onClosed : c.onClosed.closing = true := rfl

theorem onConn_eq (f : BufferedConnection → BufferedConnection) (c : Http1Connection) :
    ∃ ctx phase closing, c.onConn f = { c with conn := f c.conn, ctx, phase, closing } := by
  unfold onConn
  dsimp only
  split
  · obtain ⟨ctx, h⟩ := onClosed_eq { c with conn := f c.conn }
    exact ⟨ctx, _, _, h⟩
  · exact ⟨_, _, _, rfl⟩

@[simp] theorem conn_onConn : (c.onConn f).conn = f c.conn := by
  obtain ⟨ctx, phase, closing, h⟩ := onConn_eq f c
  rw [h]

@[simp] theorem buffer_onConn : (c.onConn f).buffer = c.buffer := by
  obtain ⟨ctx, phase, closing, h⟩ := onConn_eq f c
  rw [h]

@[simp] theorem writers_onConn : (c.onConn f).writers = c.writers := by
  obtain ⟨ctx, phase, closing, h⟩ := onConn_eq f c
  rw [h]

@[simp] theorem trace_onConn : (c.onConn f).trace = c.trace := by
  obtain ⟨ctx, phase, closing, h⟩ := onConn_eq f c
  rw [h]

theorem active_onConn : (c.onConn f).dispatchCallActive = c.dispatchCallActive := by
  obtain ⟨ctx, phase, closing, h⟩ := onConn_eq f c
  rw [h]

theorem onConn_of_open (h : (f c.conn).closed = c.conn.closed) :
    c.onConn f = { c with conn := f c.conn } := by
  unfold onConn
  dsimp only
  rw [h, if_neg (fun hclosed => hclosed.2 hclosed.1)]

theorem phase_onConn (h : c.phase = .readingRequest) :
    (c.onConn f).phase = .readingRequest := by
  unfold onConn
  dsimp only
  split
  · exact phase_onClosed
  · exact h

theorem closing_onConn :
    (c.onConn f).closing = (c.closing || (f c.conn).closed && !c.conn.closed) := by
  unfold onConn
  dsimp only
  split
  next h =>
    rw [h.1] at *
    simp [h.2]
  next h =>
    have hfalse : ((f c.conn).closed && !c.conn.closed) = false := by
      rw [Bool.eq_false_iff, ne_eq, Bool.and_eq_true, Bool.not_eq_true']
      rwa [Bool.not_eq_true] at h
    rw [hfalse, Bool.or_false]

/-- An operation that opens nothing closes the connection, and `on_closed` has run, or is the only
change. -/
theorem onConn_cases (hclosed : c.conn.closed = true → (f c.conn).closed = true) :
    (f c.conn).closed = true ∧ c.onConn f = { c with conn := f c.conn }.onClosed ∨
      (f c.conn).closed = c.conn.closed ∧ c.onConn f = { c with conn := f c.conn } := by
  by_cases hcloses : (f c.conn).closed = true ∧ c.conn.closed = false
  · exact .inl ⟨hcloses.1, if_pos ⟨hcloses.1, by rw [hcloses.2]; nofun⟩⟩
  have hsame : (f c.conn).closed = c.conn.closed := by
    cases hopen : c.conn.closed with
    | true => exact hclosed hopen
    | false => exact Bool.eq_false_iff.mpr fun hc => hcloses ⟨hc, hopen⟩
  exact .inr ⟨hsame, onConn_of_open hsame⟩

theorem sendErrorAndClose_frame (env : Env) (statusCode : Int) (reason : Bytes)
    (c : Http1Connection) :
    (c.sendErrorAndClose env statusCode reason).closing = true ∧
      (c.sendErrorAndClose env statusCode reason).buffer = c.buffer ∧
      (c.sendErrorAndClose env statusCode reason).dispatchCallActive = c.dispatchCallActive := by
  unfold sendErrorAndClose
  refine ⟨?_, ?_, ?_⟩
  · rw [closing_onConn, closing_onConn]
    rfl
  · rw [buffer_onConn, buffer_onConn]
  · rw [active_onConn, active_onConn]

theorem abandon_frame (c : Http1Connection) :
    c.abandon.closing = true ∧ c.abandon.buffer = c.buffer ∧
      c.abandon.dispatchCallActive = c.dispatchCallActive := by
  unfold abandon
  refine ⟨?_, ?_, ?_⟩
  · rw [closing_onConn]
    rfl
  · rw [buffer_onConn]
    split
    · exact buffer_countDown
    · rfl
  · rw [active_onConn]
    split
    · rfl
    · rfl

section
variable (env : Env)

/-- The end of `on_response_ready` is a restart or nothing. -/
theorem onResponseReady_eq (restart : Http1Connection → Http1Connection)
    (request : HTTPRequest) (response : HTTPResponse) (c : Http1Connection) :
    c.onResponseReady env restart request response = c.onResponseReady env id request response ∨
      c.onResponseReady env restart request response =
        restart (c.onResponseReady env id request response) := by
  unfold onResponseReady
  dsimp only
  split
  · exact .inl rfl
  split
  · exact .inl rfl
  split
  · exact .inr rfl
  · exact .inl rfl

theorem onResponseReady_frame (request : HTTPRequest) (response : HTTPResponse)
    (c : Http1Connection) :
    (c.onResponseReady env id request response).writers = c.writers ∧
      (c.onResponseReady env id request response).buffer = c.buffer := by
  unfold onResponseReady
  dsimp only
  split
  · exact ⟨writers_countDown, buffer_countDown⟩
  split
  · exact ⟨by rw [writers_onConn, writers_onConn, writers_countDown],
      by rw [buffer_onConn, buffer_onConn, buffer_countDown]⟩
  split
  · exact ⟨by rw [id, writers_onConn, writers_countDown],
      by rw [id, buffer_onConn, buffer_countDown]⟩
  · exact ⟨by rw [writers_onConn, writers_countDown],
      by rw [buffer_onConn, buffer_countDown]⟩

theorem complete_frame (n : Nat) (response : HTTPResponse) (c : Http1Connection) :
    (c.complete env id n response).writers.map Writer.request = c.writers.map Writer.request ∧
      (c.complete env id n response).buffer = c.buffer := by
  unfold complete
  split
  next request hn =>
    rw [(onResponseReady_frame _ _ _ _).1, (onResponseReady_frame _ _ _ _).2]
    exact ⟨Replace.map_set_eq Writer.request hn rfl, rfl⟩
  · exact ⟨rfl, rfl⟩

theorem callHandler_frame (call : HandlerCall) (c : Http1Connection) :
    (c.callHandler env call).writers.map Writer.request = c.writers.map Writer.request ∧
      (c.callHandler env call).buffer = c.buffer := by
  unfold callHandler
  split
  · exact complete_frame env _ _ c
  · exact ⟨rfl, rfl⟩

/-- A completion outside of a call restarts the loop, or does what it does inside. -/
theorem complete_eq (restart : Http1Connection → Http1Connection) (n : Nat)
    (response : HTTPResponse) (c : Http1Connection) :
    c.complete env restart n response = c.complete env id n response ∨
      c.complete env restart n response = restart (c.complete env id n response) := by
  unfold complete
  split
  · exact onResponseReady_eq env restart _ response _
  · exact .inl rfl

end

/-- **Rule for the loop.** What a refusal, a dispatch and an exception keep, the loop keeps. -/
theorem tryProcess_rule {I : Http1Connection → Prop}
    (herror : ∀ c, c.phase = .readingRequest → c.closing = false → I c →
      I (c.sendErrorAndClose env 400 (ascii "Bad Request")))
    (hclose : ∀ c, c.phase = .readingRequest → I c →
      I ({ c with closing := true }.onConn (·.close)))
    (hdispatch : ∀ c request consumed, c.phase = .readingRequest → c.closing = false →
      c.conn.closed = false → parseRequest env.order c.buffer = .success (request, consumed) →
      I c → I ((c.beginDispatch request consumed).callHandler env
        (env.handler (c.writers.map Writer.request) request)))
    (habandon : ∀ c, I c → I c.abandon) (fuel : Nat) (h : I c) : I (c.tryProcess env fuel) := by
  induction fuel generalizing c with
  | zero => exact h
  | succ fuel ih =>
    unfold tryProcess
    split
    · exact h
    next hguard =>
    obtain ⟨hphase, hclosing⟩ := not_or.mp hguard
    rw [not_not] at hphase
    rw [Bool.not_eq_true] at hclosing
    split
    · exact h
    next hopen =>
    rw [Bool.not_eq_true] at hopen
    split
    · split
      · exact herror c hphase hclosing h
      · exact h
    · exact herror c hphase hclosing h
    next request consumed hparse =>
      split
      · exact hclose c hphase h
      have hcall := hdispatch c request consumed hphase hclosing hopen hparse h
      dsimp only
      split
      · exact habandon _ hcall
      · exact ih hcall

theorem intact_onResponseReady (env : Env) (request : HTTPRequest) (response : HTTPResponse)
    (h : c.conn.Intact) : (c.onResponseReady env id request response).conn.Intact := by
  have hwrite : (c.countDown.onConn (·.write env.socket
      (answerBytes env.order request response))).conn.Intact := by
    rw [conn_onConn]
    exact BufferedConnection.intact_write h _
  unfold onResponseReady
  dsimp only
  split
  · rw [conn_countDown]
    exact h
  split
  · rw [conn_onConn, BufferedConnection.intact_closeAfterFlush]
    exact hwrite
  · split
    all_goals exact hwrite

end Http1Connection

end Spaznet.Http
