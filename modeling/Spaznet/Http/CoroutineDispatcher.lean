import Spaznet.Http.ReactorDispatcher

/-!
# The coroutine dispatcher

`serve_coroutine_keep_alive` as a state machine. A phase says what the coroutine is suspended at; a
step runs it from there to the next suspension. `async_write` gives the bytes to the socket and
suspends until they are out. A request that is parsed again keeps the buckets of its table.
-/

namespace Spaznet.Http

open Ascii Reactor

inductive Suspension where
  /-- The first read. -/
  | priming
  /-- A read for a request that is incomplete. -/
  | reading
  | response (n : Nat)
  | writing (keepAlive : Bool)
  | refusing
  | finished
  deriving DecidableEq

structure CoroutineConnection where
  ctx : IOContext := {}
  buffer : Bytes := []
  /-- Of the table of the request that is being read. -/
  buckets : Nat := 0
  suspension : Suspension := .priming
  writers : List Writer := []
  written : List Bytes := []
  deriving DecidableEq

namespace CoroutineConnection

/-- How much a read takes at most. -/
def readChunk : Suspension → Nat
  | .priming => 2048
  | .reading => 8192
  | .response _ | .writing _ | .refusing | .finished => 0

def refuse (env : Env) (c : CoroutineConnection) : CoroutineConnection :=
  { c with written := c.written ++ [badRequest env.order], suspension := .refusing }

def respond (env : Env) (request : HTTPRequest) (response : HTTPResponse)
    (c : CoroutineConnection) : CoroutineConnection :=
  { c with
    written := c.written ++ [answerBytes env.order request response]
    suspension := .writing request.shouldKeepAlive }

/-- A request was parsed. The handler completes the writer in the call, or the coroutine waits. -/
def dispatch (env : Env) (request : HTTPRequest) (bytesConsumed : Nat) (c : CoroutineConnection) :
    CoroutineConnection :=
  let call := env.handler (c.writers.map Writer.request) request
  let writer : Writer := { request, response := call.response }
  let n := c.writers.length
  let c := { c with
    buffer := c.buffer.drop bytesConsumed
    buckets := 0
    ctx := c.ctx.incrementActiveRequests
    writers := c.writers ++ [writer] }
  if call.throws then { c with ctx := c.ctx.decrementActiveRequests, suspension := .finished }
  else match call.response with
    | some response => c.respond env request response
    | none => { c with suspension := .response n }

/-- From the head of the loop, or from the end of a read, to the next suspension. -/
def serve (env : Env) (c : CoroutineConnection) : CoroutineConnection :=
  match parseRequest (env.tables.order c.buckets) c.buffer with
  | .incomplete =>
    if c.buffer.length < kMaxRequestBytes then
      { c with
        buckets := env.tables.grow c.buckets (storedKeys c.buffer)
        suspension := .reading }
    else c.refuse env
  | .error => c.refuse env
  | .success (request, bytesConsumed) =>
    if bytesConsumed > c.buffer.length then { c with suspension := .finished }
    else c.dispatch env request bytesConsumed

def start (env : Env) (ctx : IOContext) (initialBuffer : Bytes) : CoroutineConnection :=
  let c : CoroutineConnection := { ctx, buffer := initialBuffer }
  if initialBuffer = [] then c else c.serve env

inductive Event where
  /-- A read returns these bytes, none at the end of the stream or after an error. -/
  | read (bytes : Bytes)
  | complete (n : Nat) (response : HTTPResponse)
  | wrote
  deriving DecidableEq

def onRead (env : Env) (bytes : Bytes) (c : CoroutineConnection) : CoroutineConnection :=
  if bytes = [] then { c with suspension := .finished }
  else { c with buffer := c.buffer ++ bytes }.serve env

def complete (env : Env) (n : Nat) (response : HTTPResponse) (c : CoroutineConnection) :
    CoroutineConnection :=
  match c.writers[n]? with
  | some { request, response := none } =>
    let c := { c with writers := c.writers.set n { request, response := some response } }
    if c.suspension = .response n then c.respond env request response else c
  | _ => c

def onWrote (env : Env) (keepAlive : Bool) (c : CoroutineConnection) : CoroutineConnection :=
  let c := { c with ctx := c.ctx.decrementActiveRequests }
  if keepAlive then c.serve env else { c with suspension := .finished }

/-- An event that the coroutine is not suspended at does not reach it. -/
def step (env : Env) (c : CoroutineConnection) : Event → CoroutineConnection
  | .read bytes =>
    match c.suspension with
    | .priming | .reading => c.onRead env bytes
    | .response _ | .writing _ | .refusing | .finished => c
  | .complete n response => c.complete env n response
  | .wrote =>
    match c.suspension with
    | .writing keepAlive => c.onWrote env keepAlive
    | .refusing => { c with suspension := .finished }
    | .priming | .reading | .response _ | .finished => c

/-- A read returns something, and no more than it was asked for. -/
def Reads (c : CoroutineConnection) : Event → Prop
  | .read bytes => bytes ≠ [] ∧ bytes.length ≤ readChunk c.suspension
  | .complete _ _ | .wrote => True

instance Reads.decidable (c : CoroutineConnection) : ∀ event, Decidable (c.Reads event)
  | .read _ => inferInstanceAs (Decidable (_ ∧ _))
  | .complete _ _ | .wrote => inferInstanceAs (Decidable True)

def run (env : Env) (ctx : IOContext) (initialBuffer : Bytes) (events : List Event) :
    CoroutineConnection :=
  Machine.run (step env) (start env ctx initialBuffer) events

end CoroutineConnection

end Spaznet.Http
