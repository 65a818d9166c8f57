import Spaznet.Http.Verify.Pipelining
import Spaznet.Server.Loop

/-!
# The count of active requests

Every dispatcher counts a request up when it is dispatched. It is counted down on completion, on an
exception and, with HTTP/1, when the connection closes. A completion does not look whether one of the
others has come before: a writer that is completed after its request has failed, or after its HTTP/1
connection was closed, counts down a second time. A request that is abandoned by the close of an
HTTP/2 connection stays counted until its writer is completed.
-/

namespace Spaznet

open List Reactor.BufferedConnection
open Reactor (IOContext)

theorem Reactor.IOContext.increment_eq {ctx : IOContext} (h : ctx.activeRequests = n % 2 ^ 64) :
    ctx.incrementActiveRequests.activeRequests = (n + 1) % 2 ^ 64 := by
  unfold incrementActiveRequests
  rw [h, Nat.mod_add_mod]

theorem Reactor.IOContext.decrement_eq {ctx : IOContext}
    (h : ctx.activeRequests = (n + 1) % 2 ^ 64) :
    ctx.decrementActiveRequests.activeRequests = n % 2 ^ 64 := by
  unfold decrementActiveRequests
  dsimp only
  omega

/-! ## HTTP/1 -/

namespace Http.Http1Connection

open Reactor (BufferedConnection)

variable {env : Env} {c c' : Http1Connection} {base : Nat}
  {f : BufferedConnection → BufferedConnection}

def unfinished (c : Http1Connection) : Nat :=
  if c.conn.closed then 0 else c.writers.countP (·.response.isNone)

/-- The context counts `base` requests of others and the one that is being dispatched. -/
inductive Counted (base : Nat) (c : Http1Connection) : Prop where
  | idle (hphase : c.phase = .readingRequest) (hdone : c.conn.closed = false → Answered c.writers)
    (hctx : c.ctx.activeRequests = base % 2 ^ 64)
  | busy {ws : List Writer} {request : HTTPRequest} (hphase : c.phase = .dispatching)
    (hopen : c.conn.closed = false) (hws : c.writers = ws ++ [⟨request, none⟩])
    (hdone : Answered ws) (hctx : c.ctx.activeRequests = (base + 1) % 2 ^ 64)

theorem countP_of_answered (h : Answered ws) : ws.countP (·.response.isNone) = 0 := by
  refine countP_eq_zero.mpr fun w hw => ?_
  have hsome := h w hw
  cases hresponse : w.response with
  | none =>
    rw [hresponse] at hsome
    cases hsome
  | some response => nofun

theorem unfinished_of_answered (hdone : c.conn.closed = false → Answered c.writers) :
    c.unfinished = 0 := by
  unfold unfinished
  split
  · rfl
  next hopen => exact countP_of_answered (hdone (Bool.not_eq_true _ ▸ hopen))

theorem unfinished_of_waiting (hopen : c.conn.closed = false)
    (hws : c.writers = ws ++ [⟨request, none⟩]) (hdone : Answered ws) : c.unfinished = 1 := by
  unfold unfinished
  rw [hopen, hws, countP_append, countP_of_answered hdone]
  rfl

theorem Counted.ctx_eq (h : Counted base c) :
    c.ctx.activeRequests = (base + c.unfinished) % 2 ^ 64 := by
  cases h with
  | idle _ hdone hctx => rw [unfinished_of_answered hdone, hctx, Nat.add_zero]
  | busy _ hopen hws hdone hctx => rw [unfinished_of_waiting hopen hws hdone, hctx]

theorem Counted.rebase (h : Counted base c) {ctx : IOContext}
    (hctx : ctx.activeRequests = (base' + c.unfinished) % 2 ^ 64) :
    Counted base' { c with ctx } := by
  cases h with
  | idle hphase hdone _ =>
    rw [unfinished_of_answered hdone] at hctx
    exact .idle hphase hdone hctx
  | busy hphase hopen hws hdone _ =>
    rw [unfinished_of_waiting hopen hws hdone] at hctx
    exact .busy hphase hopen hws hdone hctx

theorem Counted.congr (h : Counted base c) (hphase : c'.phase = c.phase) (hconn : c'.conn = c.conn)
    (hwriters : c'.writers = c.writers) (hctx : c'.ctx = c.ctx) :
    Counted base c' := by
  cases h with
  | idle hphase₀ hdone hctx₀ =>
    refine .idle (hphase.trans hphase₀) (fun hopen => ?_) (by rw [hctx, hctx₀])
    rw [hconn] at hopen
    rw [hwriters]
    exact hdone hopen
  | busy hphase₀ hopen hws hdone hctx₀ =>
    exact .busy (hphase.trans hphase₀) (by rw [hconn, hopen]) (hwriters.trans hws) hdone
      (by rw [hctx, hctx₀])

theorem phase_ne_dispatching (h : c.phase = .readingRequest) : c.phase ≠ .dispatching := by
  rw [h]
  nofun

theorem Counted.onClosed (h : Counted base c) (hclosed : c'.conn.closed = true)
    (hphase : c'.phase = c.phase) (hctx : c'.ctx = c.ctx) : Counted base c'.onClosed := by
  refine .idle phase_onClosed (fun hopen => ?_) ?_
  · rw [conn_onClosed, hclosed] at hopen
    cases hopen
  · unfold Http1Connection.onClosed
    cases h with
    | idle hphase₀ _ hctx₀ =>
      rw [if_neg (by rw [hphase]; exact phase_ne_dispatching hphase₀)]
      exact (congrArg _ hctx).trans hctx₀
    | busy hphase₀ _ _ _ hctx₀ =>
      rw [if_pos (by rw [hphase, hphase₀])]
      exact IOContext.decrement_eq ((congrArg _ hctx).trans hctx₀)

theorem ctx_onConn (h : c.phase = .readingRequest) : (c.onConn f).ctx = c.ctx := by
  unfold Http1Connection.onConn Http1Connection.onClosed
  dsimp only
  split
  · rw [if_neg (phase_ne_dispatching h)]
  · rfl

section
variable (h : Counted base c)
include h

theorem Counted.onConn
    (hmono : c.conn.closed = true → (f c.conn).closed = true) : Counted base (c.onConn f) := by
  obtain ⟨hclosed, heq⟩ | ⟨hsame, heq⟩ := onConn_cases hmono
  · rw [heq]
    exact h.onClosed hclosed rfl rfl
  rw [heq]
  cases h with
  | idle hphase hdone hctx =>
    exact .idle hphase (fun hopen => hdone (hsame.symm.trans hopen)) hctx
  | busy hphase hopen hws hdone hctx => exact .busy hphase (hsame.trans hopen) hws hdone hctx

theorem Counted.close : Counted base (c.onConn (·.close)) :=
  h.onConn fun _ => closed_close

theorem Counted.closeAfterFlush : Counted base (c.onConn (·.closeAfterFlush)) :=
  h.onConn fun hc => by rwa [closeAfterFlush_of_closed hc]

theorem Counted.write (data : Bytes) : Counted base (c.onConn (·.write env.socket data)) :=
  h.onConn fun hc => by rwa [write_of_closed hc]

theorem Counted.closing : Counted base { c with closing := true } :=
  h.congr rfl rfl rfl rfl

end

theorem Counted.onResponseReady (hdone : Answered c.writers)
    (hctx : c.ctx.activeRequests = (base + 1) % 2 ^ 64) (request : HTTPRequest)
    (response : HTTPResponse) : Counted base (c.onResponseReady env id request response) := by
  have hidle : Counted base c.countDown :=
    .idle phase_countDown (fun _ => by rwa [writers_countDown]) (IOContext.decrement_eq hctx)
  unfold Http1Connection.onResponseReady
  dsimp only
  split
  · exact hidle
  split
  · exact ((hidle.write _).closing).closeAfterFlush
  · split
    all_goals exact hidle.write _

/-- A writer is completed in time if its connection is open, or it has been completed before. -/
def Punctual (c : Http1Connection) (n : Nat) : Prop :=
  ∀ w ∈ c.writers[n]?, w.response = none → c.conn.closed = false
  deriving Decidable

section
variable (h : Counted base c)
include h

theorem Counted.complete_id (hpunctual : c.Punctual n)
    (response : HTTPResponse) : Counted base (c.complete env id n response) := by
  unfold Http1Connection.complete
  split
  next request hn =>
    cases h with
    | idle _ hdone _ => cases hdone (hpunctual _ hn rfl) _ (mem_of_getElem? hn)
    | @busy ws last hphase hopen hws hdone hctx =>
      rw [hws] at hn
      obtain ⟨rfl, rfl⟩ := hdone.unanswered hn
      apply Counted.onResponseReady
      · rw [hws, Replace.set_last]
        exact hdone.append request response
      · exact hctx
  · exact h

theorem Counted.beginDispatch (hphase : c.phase = .readingRequest)
    (hopen : c.conn.closed = false) (request : HTTPRequest) (consumed : Nat) :
    Counted base (c.beginDispatch request consumed) := by
  cases h with
  | idle _ hdone hctx => exact .busy rfl hopen rfl (hdone hopen) (IOContext.increment_eq hctx)
  | busy hphase' => cases hphase.symm.trans hphase'

theorem Counted.callHandler (hopen : c.conn.closed = false)
    (call : HandlerCall) : Counted base (c.callHandler env call) := by
  unfold Http1Connection.callHandler
  split
  · exact (h.complete_id (fun _ _ _ => hopen) _).congr rfl rfl rfl rfl
  · exact h.congr rfl rfl rfl rfl

/-- The handler has thrown: its request is counted down and the connection closed. -/
theorem Counted.abandon : Counted base c.abandon := by
  unfold Http1Connection.abandon
  cases h with
  | idle hphase hdone hctx =>
    rw [if_neg (phase_ne_dispatching hphase)]
    exact (Counted.idle hphase hdone hctx).closing.close
  | busy hphase _ _ _ hctx =>
    rw [if_pos hphase]
    refine .idle (phase_onConn rfl) (fun hopen => ?_) ?_
    · rw [conn_onConn, closed_close] at hopen
      cases hopen
    · exact (congrArg _ (ctx_onConn rfl)).trans (IOContext.decrement_eq hctx)

theorem Counted.tryProcess (fuel : Nat) : Counted base (c.tryProcess env fuel) := by
  refine tryProcess_rule (I := Counted base) ?_ ?_ ?_ ?_ fuel h
  · exact fun c _ _ h => (h.closing.write _).closeAfterFlush
  · exact fun c _ h => h.closing.close
  · intro c request consumed hphase _ hopen _ h
    exact (h.beginDispatch hphase hopen request consumed).callHandler hopen _
  · exact fun c h => h.abandon

theorem Counted.complete (hpunctual : c.Punctual n)
    (response : HTTPResponse) : Counted base (c.complete env (process env) n response) := by
  have hid : Counted base (c.complete env id n response) := h.complete_id hpunctual response
  obtain heq | heq := complete_eq env (process env) n response c
  · rw [heq]
    exact hid
  · rw [heq]
    exact hid.tryProcess _

end

theorem Counted.start (env : Env) (initialBuffer : Bytes) {ctx : IOContext}
    (hctx : ctx.activeRequests = base % 2 ^ 64) : Counted base (start env ctx initialBuffer) := by
  have hfresh : Counted base { ctx, buffer := initialBuffer } := .idle rfl (fun _ => nofun) hctx
  unfold Http1Connection.start
  split
  · exact hfresh.tryProcess _
  · exact hfresh

theorem Counted.step (h : Counted base c) (event : Event)
    (hpunctual : ∀ n response, event = .complete n response → c.Punctual n) :
    Counted base (step env c event) := by
  cases event with
  | data bytes =>
    have hbuffer : Counted base { c with buffer := c.buffer ++ bytes } := h.congr rfl rfl rfl rfl
    unfold Http1Connection.step Http1Connection.onData
    dsimp only
    split
    · exact h
    split
    · exact hbuffer
    · exact hbuffer.tryProcess _
  | fail => exact h.close
  | writable =>
    exact h.onConn fun hc => by rwa [onWritable_of_closed hc]
  | complete n response => exact h.complete (hpunctual n response rfl) response

end Http.Http1Connection

/-! ## HTTP/2 -/

namespace Http2

namespace Http2Connection

variable {env : Env} {c c' : Http2Connection} {base : Nat}

def unfinished (c : Http2Connection) : Nat := if c.conn.closed then 0 else c.waiting

/-- The requests that waited when the connection was closed, and still do. -/
def abandoned (c : Http2Connection) : Nat := if c.conn.closed then c.waiting else 0

theorem unfinished_add_abandoned : c.unfinished + c.abandoned = c.waiting := by
  unfold unfinished abandoned
  split
  · exact Nat.zero_add _
  · rfl

/-- The context counts `base` requests of others and those that wait here. -/
def Counted (base : Nat) (c : Http2Connection) : Prop :=
  c.ctx.activeRequests = (base + c.waiting) % 2 ^ 64

/-- A writer is completed in time if its handler has not thrown, or it has been completed before. -/
def Punctual (c : Http2Connection) (n : Nat) : Prop :=
  ∀ w ∈ c.writers[n]?, w.response = none → w.failed = false
  deriving Decidable

theorem counted_new : Counted 0 {} := rfl

section
variable (h : Counted base c)
include h

theorem Counted.quiet (hquiet : Quiet c c') : Counted base c' := by
  obtain ⟨frames, -, hwrites⟩ := hquiet
  unfold Counted waiting
  rw [hwrites.ctx, hwrites.writers]
  exact h

theorem Counted.finish (hn : c.writers[n]? = some old)
    (hold : old.pending = true) (hnew : new.pending = false) :
    Counted base
      { c with ctx := c.ctx.decrementActiveRequests, writers := c.writers.set n new } := by
  unfold Counted waiting at h
  rw [← Replace.countP_set_succ hn hold hnew] at h
  exact IOContext.decrement_eq h

theorem Counted.complete (hpunctual : c.Punctual n) (response : Response) :
    Counted base (c.complete env n response) := by
  unfold Http2Connection.complete
  split
  next request failed hn =>
    cases hpunctual _ hn rfl
    unfold onResponseReady
    dsimp only
    split
    · exact h.finish hn rfl rfl
    unfold Counted waiting
    rw [(writes_foldl env _ _).ctx, (writes_foldl env _ _).writers]
    exact h.finish hn rfl rfl
  · exact h

theorem Counted.beginDispatch (request : Request) : Counted base (c.beginDispatch request) := by
  unfold Counted waiting Http2Connection.beginDispatch
  rw [countP_append]
  exact IOContext.increment_eq h

theorem Counted.dispatchRequest (request : Request) :
    Counted base (c.dispatchRequest env request) := by
  have hbegin := h.beginDispatch request
  have hn := getElem?_beginDispatch request c
  unfold Http2Connection.dispatchRequest
  dsimp only
  split
  · refine hbegin.complete (fun w hget _ => ?_) _
    cases hn.symm.trans hget
    rfl
  · split
    · refine Counted.quiet ?_ ((writes_writeFrame env _ _).quiet nofun)
      exact hbegin.finish hn rfl rfl
    · exact hbegin

theorem Counted.step (event : Event)
    (hpunctual : ∀ n response, event = .complete n response → c.Punctual n) :
    Counted base (step env c event) := by
  have hquiet : ∀ c c', Quiet c c' → Counted base c → Counted base c' :=
    fun _ _ hquiet h => h.quiet hquiet
  apply step_rule hquiet _ _ h
  · intro c frame _ h
    apply perform_rule hquiet (fun c request h => h.dispatchRequest request)
    exact h
  · exact fun n response hevent => h.complete (hpunctual n response hevent) response

end

end Http2Connection

end Http2

/-! ## The context -/

namespace Server

open Http (Http1Connection)
open Http2 (Http2Connection)
open Machine (AllSteps)

namespace Connection

/-- The requests that are neither answered, failed nor abandoned by a close. -/
def unfinished : Connection → Nat
  | http1 _ c => c.unfinished
  | http2 _ c => c.unfinished

/-- The requests that were abandoned by a close and have not been counted down. -/
def abandoned : Connection → Nat
  | http1 _ _ => 0
  | http2 _ c => c.abandoned

def counted (connection : Connection) : Nat := connection.unfinished + connection.abandoned

def ctx : Connection → IOContext
  | http1 _ c => c.ctx
  | http2 _ c => c.ctx

def Counted (base : Nat) : Connection → Prop
  | http1 _ c => c.Counted base
  | http2 _ c => c.Counted base

/-- The writer of request `n` is completed in time. -/
def Punctual (n : Nat) : Connection → Prop
  | http1 _ c => c.Punctual n
  | http2 _ c => c.Punctual n

instance Punctual.decidable (n : Nat) : ∀ connection, Decidable (Punctual n connection)
  | http1 _ c => inferInstanceAs (Decidable (c.Punctual n))
  | http2 _ c => inferInstanceAs (Decidable (c.Punctual n))

theorem Counted.ctx_eq {connection : Connection} (h : connection.Counted base) :
    connection.ctx.activeRequests = (base + connection.counted) % 2 ^ 64 := by
  cases connection with
  | http1 env c => exact Http1Connection.Counted.ctx_eq h
  | http2 env c =>
    unfold counted unfinished abandoned
    rw [Http2Connection.unfinished_add_abandoned]
    exact h

end Connection

namespace Loop

variable {loop : Loop}

def unfinished (loop : Loop) : Nat := (loop.connections.map Connection.unfinished).sum

def abandoned (loop : Loop) : Nat := (loop.connections.map Connection.abandoned).sum

def counted (loop : Loop) : Nat := (loop.connections.map Connection.counted).sum

/-- No writer is completed after its request has failed, or its HTTP/1 connection was closed. -/
def Punctual (loop : Loop) : Event → Prop
  | .http1 i (.complete n _) | .http2 i (.complete n _) =>
    ∀ connection ∈ loop.connections[i]?, connection.Punctual n
  | _ => True

instance Punctual.decidable (loop : Loop) : ∀ event, Decidable (loop.Punctual event)
  | .http1 i (.complete n _) | .http2 i (.complete n _) =>
    inferInstanceAs (Decidable (∀ connection ∈ loop.connections[i]?, connection.Punctual n))
  | .acceptHttp1 _ _ | .acceptHttp2 _ | .http1 _ (.data _) | .http1 _ .fail | .http1 _ .writable
  | .http2 _ (.data _) | .http2 _ .fail | .http2 _ .writable => isTrue trivial

structure Counted (loop : Loop) : Prop where
  stage : ∀ connection ∈ loop.connections, ∃ base, connection.Counted base
  ctx : loop.ctx.activeRequests = loop.counted % 2 ^ 64

theorem counted_eq (loop : Loop) : loop.counted = loop.unfinished + loop.abandoned :=
  sum_map_add

theorem Counted.set (h : Counted loop) {old : Connection}
    (hi : loop.connections[i]? = some old) (new : Connection)
    (hnew : ∀ base, loop.ctx.activeRequests = (base + old.counted) % 2 ^ 64 → new.Counted base) :
    Counted { ctx := new.ctx, connections := loop.connections.set i new } := by
  obtain ⟨base, hsum, hsum'⟩ := Replace.exists_sum_set Connection.counted hi
  have hcounted : new.Counted base := by
    apply hnew
    rw [h.ctx, Loop.counted, hsum]
  refine ⟨fun connection hmem => ?_, ?_⟩
  · obtain hmem | rfl := mem_or_eq_of_mem_set hmem
    · exact h.stage connection hmem
    · exact ⟨base, hcounted⟩
  · rw [Loop.counted, hsum']
    exact hcounted.ctx_eq

theorem Counted.accept (h : Counted loop) (new : Connection) {ctx : IOContext}
    (hnew : new.Counted base) (hctx : ctx.activeRequests = (loop.counted + new.counted) % 2 ^ 64) :
    Counted { ctx, connections := loop.connections ++ [new] } := by
  refine ⟨forall_mem_append.mpr ⟨h.stage, forall_mem_singleton.mpr ⟨base, hnew⟩⟩, ?_⟩
  unfold Loop.counted at hctx ⊢
  rw [map_append, sum_append, hctx]
  rfl

theorem Counted.step (h : Counted loop) (event : Event) (hpunctual : loop.Punctual event) :
    Counted (loop.step event) := by
  cases event with
  | acceptHttp1 env initialBuffer =>
    have hstart := Http1Connection.Counted.start env initialBuffer h.ctx
    exact h.accept (.http1 env _) hstart hstart.ctx_eq
  | acceptHttp2 env => exact h.accept (.http2 env {}) Http2Connection.counted_new h.ctx
  | http1 i event =>
    unfold Loop.step
    dsimp only
    split
    next env c hi =>
      refine h.set hi (.http1 env _) fun base hctx => ?_
      obtain ⟨base', hcounted⟩ := h.stage _ (mem_of_getElem? hi)
      refine (Http1Connection.Counted.rebase hcounted hctx).step event fun n response hevent => ?_
      subst hevent
      exact hpunctual _ hi
    · exact h
  | http2 i event =>
    unfold Loop.step
    dsimp only
    split
    next env c hi =>
      refine h.set hi (.http2 env _) fun base hctx => ?_
      have hcounted : Http2Connection.Counted base { c with ctx := loop.ctx } := by
        unfold Connection.counted Connection.unfinished Connection.abandoned at hctx
        rw [Http2Connection.unfinished_add_abandoned] at hctx
        exact hctx
      refine hcounted.step event fun n response hevent => ?_
      subst hevent
      exact hpunctual _ hi
    · exact h

theorem counted_run (events : List Event) (h : AllSteps step Punctual {} events) :
    Counted (run events) := by
  have hinit : Counted {} := ⟨forall_mem_nil _, rfl⟩
  have hstep (loop : Loop) (event : Event) (h : Counted loop) (hpunctual : loop.Punctual event) :
      Counted (loop.step event) := h.step event hpunctual
  exact Machine.run_invariant hstep hinit h

/-- When no writer is completed too late, the context counts the unfinished requests exactly if no
request was abandoned by the close of an HTTP/2 connection. -/
theorem activeRequests_eq_iff (events : List Event) (h : AllSteps step Punctual {} events) :
    (run events).ctx.activeRequests = (run events).unfinished % 2 ^ 64 ↔
      (run events).abandoned % 2 ^ 64 = 0 := by
  rw [(counted_run events h).ctx, counted_eq]
  omega

/-- A request is dispatched on an HTTP/1 connection and one on an HTTP/2 connection. Their handlers
complete no writer. -/
def twoDeferred : List Event :=
  [.acceptHttp1 .deferring [], .http1 0 (.data (Http.ascii "GET / HTTP/1.1\r\n\r\n")),
    .acceptHttp2 { Http2.Env.answering {} with handler := fun _ _ => {} },
    .http2 1 (.client [Http2.headersFrame 1 0x5])]

/-- One of them is answered and the other stays counted. -/
theorem activeRequests_twoDeferred :
    (run (twoDeferred ++ [.http1 0 (.complete 0 {})])).unfinished = 1 ∧
      (run (twoDeferred ++ [.http1 0 (.complete 0 {})])).ctx.activeRequests =
        (run (twoDeferred ++ [.http1 0 (.complete 0 {})])).unfinished % 2 ^ 64 :=
  ⟨by decide +kernel, (activeRequests_eq_iff _ (by decide +kernel)).mpr (by decide +kernel)⟩

/-- Both connections fail, and the request of the second stays counted. A writer that is completed
after its HTTP/1 connection has failed counts its request down again, and the counter wraps. -/
theorem activeRequests_miscounted :
    let closed := twoDeferred ++ [.http1 0 .fail, .http2 1 .fail]
    let late := twoDeferred.take 2 ++ [.http1 0 .fail, .http1 0 (.complete 0 {})]
    (run closed).unfinished = 0 ∧ (run closed).ctx.activeRequests = 1 ∧
      (run late).unfinished = 0 ∧ (run late).ctx.activeRequests = 2 ^ 64 - 1 := by
  decide +kernel

end Loop

end Server

end Spaznet
