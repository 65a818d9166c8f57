import Spaznet.Http.CoroutineDispatcher
import Spaznet.Http.Verify.Incremental
import Spaznet.Http.Verify.Pipelining

/-!
# The two dispatchers

What a stream of requests comes to is said once, by `Serves`: the requests that the handler is called
with, the messages that are written and whether the connection ends. Both dispatchers come to that,
however the stream is cut into reads, and so they agree; the coroutine as long as the buckets that
its requests keep do not change the order of their fields.
-/

namespace Spaznet.Http

open Ascii Reactor List

/-- What the stream comes to, behind requests that are past. -/
inductive Serves (env : Env) : (past : List HTTPRequest) → (stream : Bytes) →
    (requests : List HTTPRequest) → (written : List Bytes) → (ended : Bool) → Prop where
  | wait : parseRequest env.order stream = .incomplete → stream.length < kMaxRequestBytes →
    Serves env past stream [] [] false
  | refuse : parseRequest env.order stream = .error ∨
      parseRequest env.order stream = .incomplete ∧ kMaxRequestBytes ≤ stream.length →
    Serves env past stream [] [badRequest env.order] true
  | last : parseRequest env.order stream = .success (request, consumed) →
    env.handler past request = ⟨some response, false⟩ → request.shouldKeepAlive = false →
    Serves env past stream [request] [answerBytes env.order request response] true
  | next : parseRequest env.order stream = .success (request, consumed) →
    env.handler past request = ⟨some response, false⟩ → request.shouldKeepAlive = true →
    Serves env (past ++ [request]) (stream.drop consumed) requests written ended →
    Serves env past stream (request :: requests)
      (answerBytes env.order request response :: written) ended

abbrev Refused (order : HashOrder) (buffer : Bytes) : Prop :=
  parseRequest order buffer = .error ∨
    parseRequest order buffer = .incomplete ∧ kMaxRequestBytes ≤ buffer.length

theorem not_success_of_refused (h : Refused order stream) :
    parseRequest order stream ≠ .success result := by
  obtain herror | ⟨hinc, -⟩ := h
  · rw [herror]
    nofun
  · rw [hinc]
    nofun

theorem le_of_refused (h : Refused order stream)
    (hparse : parseRequest order stream = .incomplete) : kMaxRequestBytes ≤ stream.length := by
  obtain herror | ⟨-, hlong⟩ := h
  · cases hparse.symm.trans herror
  · exact hlong

theorem Serves.unique (h : Serves env past stream requests written ended)
    (h' : Serves env past stream requests' written' ended') :
    requests = requests' ∧ written = written' ∧ ended = ended' := by
  induction h generalizing requests' written' ended' with
  | wait hparse hshort =>
    cases h' with
    | wait => exact ⟨rfl, rfl, rfl⟩
    | refuse hrefuse => exact absurd hshort (Nat.not_lt.mpr (le_of_refused hrefuse hparse))
    | last hparse' | next hparse' => cases hparse.symm.trans hparse'
  | refuse hrefuse =>
    cases h' with
    | wait hparse hshort => exact absurd hshort (Nat.not_lt.mpr (le_of_refused hrefuse hparse))
    | refuse => exact ⟨rfl, rfl, rfl⟩
    | last hparse | next hparse => exact absurd hparse (not_success_of_refused hrefuse)
  | last hparse hcall hclose =>
    cases h' with
    | wait hparse' => cases hparse.symm.trans hparse'
    | refuse hrefuse => exact absurd hparse (not_success_of_refused hrefuse)
    | last hparse' hcall' =>
      cases hparse.symm.trans hparse'
      cases hcall.symm.trans hcall'
      exact ⟨rfl, rfl, rfl⟩
    | next hparse' _ hkeep =>
      cases hparse.symm.trans hparse'
      cases hclose.symm.trans hkeep
  | next hparse hcall hkeep _ ih =>
    cases h' with
    | wait hparse' => cases hparse.symm.trans hparse'
    | refuse hrefuse => exact absurd hparse (not_success_of_refused hrefuse)
    | last hparse' _ hclose =>
      cases hparse.symm.trans hparse'
      cases hclose.symm.trans hkeep
    | next hparse' hcall' _ hrest =>
      cases hparse.symm.trans hparse'
      cases hcall.symm.trans hcall'
      obtain ⟨rfl, rfl, rfl⟩ := ih hrest
      exact ⟨rfl, rfl, rfl⟩

def RequestsFit (order : HashOrder) (stream : Bytes) : Prop :=
  ∀ requests rest request consumed, Pipelined order stream requests rest →
    parseRequest order rest = .success (request, consumed) → consumed ≤ kMaxRequestBytes

theorem requestsFit_of_length (order : HashOrder) (h : stream.length ≤ kMaxRequestBytes) :
    RequestsFit order stream := by
  intro requests rest request consumed hwire hparse
  exact (parseRequest_le hparse).trans (hwire.length_le.trans h)

/-- The fields of every request are visited in one order, however often they are stored. -/
def SteadyRequests (tables : HashTables) (stream : Bytes) : Prop :=
  ∀ requests rest, Pipelined (tables.order 0) stream requests rest → tables.Steady (storedKeys rest)

def Synchronous (handler : Handler) : Prop :=
  ∀ past request, ∃ response, handler past request = ⟨some response, false⟩

/-! ## A part of the stream -/

/-- These requests and messages are the beginning of what the stream comes to; the rest of it decides
how it goes on. -/
structure Continues (env : Env) (stream : Bytes) (requests : List HTTPRequest)
    (written : List Bytes) (rest : Bytes) : Prop where
  wire : Pipelined env.order stream requests rest
  serves : ∀ {requests' written' ended}, Serves env requests rest requests' written' ended →
    Serves env [] stream (requests ++ requests') (written ++ written') ended

namespace Continues

variable {env : Env} {stream : Bytes} {requests : List HTTPRequest} {written : List Bytes}

theorem refl (env : Env) (stream : Bytes) : Continues env stream [] [] stream := ⟨.nil, id⟩

theorem wait (h : Continues env stream requests written rest)
    (hparse : parseRequest env.order rest = .incomplete) (hshort : rest.length < kMaxRequestBytes) :
    Serves env [] stream requests written false := by
  have hserves := h.serves (.wait hparse hshort)
  rw [append_nil, append_nil] at hserves
  exact hserves

theorem refuse (h : Continues env stream requests written (buffer ++ unread))
    (hfit : RequestsFit env.order stream) (hrefuse : Refused env.order buffer) :
    Serves env [] stream requests (written ++ [badRequest env.order]) true := by
  suffices hstream : Refused env.order (buffer ++ unread) by
    have hserves := h.serves (.refuse hstream)
    rw [append_nil] at hserves
    exact hserves
  obtain herror | ⟨hinc, hlong⟩ := hrefuse
  · exact .inl ((parseRequest_append (by rw [herror]; nofun) unread).trans herror)
  have hlong' : kMaxRequestBytes ≤ (buffer ++ unread).length := by
    rw [length_append]
    omega
  cases hparse : parseRequest env.order (buffer ++ unread) with
  | error => exact .inl hparse
  | incomplete => exact .inr ⟨hparse, hlong'⟩
  | success result =>
    -- a request that is complete only behind the cap does not fit
    have hcap := hfit _ _ _ _ h.wire hparse
    have hbeyond := parseRequest_incomplete hinc hparse
    omega

section
variable (h : Continues env stream requests written (buffer ++ unread))
  (hparse : parseRequest env.order buffer = .success (request, consumed))
  (hcall : env.handler requests request = ⟨some response, false⟩)
include h hparse hcall

theorem last (hclose : request.shouldKeepAlive = false) :
    Serves env [] stream (requests ++ [request])
      (written ++ [answerBytes env.order request response]) true :=
  h.serves (.last ((parseRequest_append (by rw [hparse]; nofun) unread).trans hparse) hcall hclose)

theorem next (hkeep : request.shouldKeepAlive = true) :
    Continues env stream (requests ++ [request])
      (written ++ [answerBytes env.order request response])
      (buffer.drop consumed ++ unread) := by
  have hparse' := (parseRequest_append (by rw [hparse]; nofun) unread).trans hparse
  have hdrop : (buffer ++ unread).drop consumed = buffer.drop consumed ++ unread :=
    drop_append_of_le_length (parseRequest_le hparse)
  constructor
  · rw [← hdrop]
    exact h.wire.snoc hparse'
  · intro requests' written' ended hserves
    rw [← hdrop] at hserves
    have hnext := h.serves (.next hparse' hcall hkeep hserves)
    rw [append_assoc, append_assoc]
    exact hnext

end

end Continues

/-! ## The reactor -/

namespace Http1Connection

variable {env : Env} {c : Http1Connection}

/-- The dispatcher can take the next request. -/
structure Ready (c : Http1Connection) : Prop where
  phase : c.phase = .readingRequest
  closing : c.closing = false
  opened : c.conn.closed = false
  goes : c.conn.closesAfterFlush = false

/-- The connection is closed, or it will be when everything is sent. -/
structure Ending (c : Http1Connection) : Prop where
  phase : c.phase = .readingRequest
  closing : c.closing = true
  draining : c.conn.Draining

theorem ending_closeAfterFlush (hphase : c.phase = .readingRequest) (hclosing : c.closing = true) :
    (c.onConn (·.closeAfterFlush)).Ending := by
  refine ⟨phase_onConn hphase, ?_, ?_⟩
  · rw [closing_onConn, hclosing]
    rfl
  · rw [conn_onConn]
    exact BufferedConnection.draining_closeAfterFlush

theorem onResponseReady_reliable (hsocket : BufferedConnection.Reliable env.socket)
    (hclosing : c.closing = false) (hopen : c.conn.closed = false)
    (hgoes : c.conn.closesAfterFlush = false) (request : HTTPRequest) (response : HTTPResponse) :
    (c.onResponseReady env id request response).conn.written =
        c.conn.written ++ [answerBytes env.order request response] ∧
      (request.shouldKeepAlive = true → (c.onResponseReady env id request response).Ready) ∧
      (request.shouldKeepAlive = false → (c.onResponseReady env id request response).Ending) := by
  unfold onResponseReady
  extract_lets c' c''
  have hopen' : c''.conn.closed = false := by
    rw [conn_onConn, BufferedConnection.closed_write_of_reliable hsocket]
    exact hopen
  have hready : c''.Ready := by
    refine ⟨phase_onConn rfl, ?_, hopen', ?_⟩
    · rw [conn_onConn] at hopen'
      rw [closing_onConn, hopen', closing_countDown, hclosing]
      rfl
    · rw [conn_onConn, BufferedConnection.closesAfterFlush_write]
      exact hgoes
  have hwritten : c''.conn.written =
      c.conn.written ++ [answerBytes env.order request response] := by
    rw [conn_onConn]
    exact BufferedConnection.written_write hopen (answerBytes_ne_nil _ _ _)
  rw [if_neg (by rw [closing_countDown, hclosing]; exact Bool.false_ne_true)]
  cases hkeep : request.shouldKeepAlive with
  | false =>
    rw [Bool.not_false, if_pos rfl]
    refine ⟨?_, nofun, fun _ => ending_closeAfterFlush hready.phase rfl⟩
    rw [conn_onConn, BufferedConnection.written_closeAfterFlush]
    exact hwritten
  | true =>
    rw [Bool.not_true, if_neg Bool.false_ne_true]
    split
    all_goals exact ⟨hwritten, fun _ => hready, nofun⟩

/-- One round of the loop with a handler that answers in the call. -/
theorem dispatch_reliable (hsocket : BufferedConnection.Reliable env.socket) (h : c.Ready)
    (request : HTTPRequest) (consumed : Nat) (response : HTTPResponse) :
    let c' := (c.beginDispatch request consumed).callHandler env ⟨some response, false⟩
    c'.writers = c.writers ++ [⟨request, some response⟩] ∧ c'.buffer = c.buffer.drop consumed ∧
      c'.conn.written = c.conn.written ++ [answerBytes env.order request response] ∧
      (request.shouldKeepAlive = true → c'.Ready) ∧
      (request.shouldKeepAlive = false → c'.Ending) := by
  set begun := c.beginDispatch request consumed
  have hlast : begun.writers[begun.writers.length - 1]? = some ⟨request, none⟩ := by
    unfold begun beginDispatch
    rw [length_append, length_singleton, Nat.add_sub_cancel,
      getElem?_append_right (Nat.le_refl _), Nat.sub_self]
    rfl
  have hset : begun.writers.set (begun.writers.length - 1) ⟨request, some response⟩ =
      c.writers ++ [⟨request, some response⟩] := by
    unfold begun beginDispatch
    rw [length_append, length_singleton, Nat.add_sub_cancel,
      set_append_right _ _ (Nat.le_refl _), Nat.sub_self]
    rfl
  intro c'
  generalize hm : ({ begun with
    writers := c.writers ++ [⟨request, some response⟩]
    trace := begun.trace ++ [.answer (begun.writers.length - 1)] } : Http1Connection) = m
  have heq : c' = { m.onResponseReady env id request response with dispatchCallActive := false } := by
    unfold c' callHandler complete
    rw [hlast]
    dsimp only
    rw [hset, hm]
  have hconn : m.conn = c.conn := by rw [← hm]; rfl
  obtain ⟨hwritten, hkeep, hclose⟩ := onResponseReady_reliable (c := m) hsocket
    (by rw [← hm]; exact h.closing) (by rw [hconn]; exact h.opened) (by rw [hconn]; exact h.goes)
    request response
  obtain ⟨hwriters, hbuffer⟩ := onResponseReady_frame env request response m
  rw [heq]
  refine ⟨?_, ?_, ?_, fun hk => ?_, fun hk => ?_⟩
  · rw [hwriters, ← hm]
  · rw [hbuffer, ← hm]
    rfl
  · rw [hwritten, hconn]
  · exact { hkeep hk with }
  · exact { hclose hk with }

/-- How far a connection has come with the stream, of which this is unread. -/
inductive At (env : Env) (stream unread : Bytes) (c : Http1Connection) : Prop where
  | waiting : c.Ready → Answered c.writers → parseRequest env.order c.buffer = .incomplete →
    c.buffer.length < kMaxRequestBytes →
    Continues env stream (c.writers.map Writer.request) c.conn.written (c.buffer ++ unread) →
    At env stream unread c
  | ended : c.Ending → Answered c.writers →
    Serves env [] stream (c.writers.map Writer.request) c.conn.written true →
    At env stream unread c

theorem At.refused (hfit : RequestsFit env.order stream) (hready : c.Ready)
    (hdone : Answered c.writers) (hrefuse : Refused env.order c.buffer)
    (hcont : Continues env stream (c.writers.map Writer.request) c.conn.written
      (c.buffer ++ unread)) :
    At env stream unread (c.sendErrorAndClose env 400 (ascii "Bad Request")) := by
  unfold sendErrorAndClose
  refine .ended (ending_closeAfterFlush (phase_onConn hready.phase) ?_) ?_ ?_
  · rw [closing_onConn]
    rfl
  · rw [writers_onConn, writers_onConn]
    exact hdone
  · have hwritten : (c.conn.write env.socket (badRequest env.order)).written =
        c.conn.written ++ [badRequest env.order] :=
      BufferedConnection.written_write hready.opened (badRequest_ne_nil env.order)
    have hserves := hcont.refuse hfit hrefuse
    rw [← hwritten] at hserves
    rw [writers_onConn, writers_onConn, conn_onConn, BufferedConnection.written_closeAfterFlush,
      conn_onConn]
    exact hserves

theorem complete_of_answered (h : Answered c.writers)
    (restart : Http1Connection → Http1Connection) (n : Nat) (response : HTTPResponse) :
    c.complete env restart n response = c := by
  unfold complete
  split
  next hn => cases h _ (mem_of_getElem? hn)
  · rfl

section Reads

variable {stream unread : Bytes} (hsocket : BufferedConnection.Reliable env.socket)
  (hsync : Synchronous env.handler) (hfit : RequestsFit env.order stream)

include hsocket hsync hfit

/-- The loop goes on with the stream as far as it can. -/
theorem At.tryProcess (hready : c.Ready) (hdone : Answered c.writers)
    (hcont : Continues env stream (c.writers.map Writer.request) c.conn.written
      (c.buffer ++ unread)) (hfuel : c.buffer.length < fuel) :
    At env stream unread (c.tryProcess env fuel) := by
  induction fuel generalizing c with
  | zero => omega
  | succ fuel ih =>
    unfold Http1Connection.tryProcess
    rw [if_neg (by rw [hready.phase, hready.closing]; simp),
      if_neg (by rw [hready.opened]; exact Bool.false_ne_true)]
    split
    next hparse =>
      split
      next hlong => exact .refused hfit hready hdone (.inr ⟨hparse, hlong⟩) hcont
      next hshort => exact .waiting hready hdone hparse (by omega) hcont
    next hparse => exact .refused hfit hready hdone (.inl hparse) hcont
    next request consumed hparse =>
      have hle := parseRequest_le hparse
      have hpos := parseRequest_pos hparse
      obtain ⟨response, hcall⟩ := hsync (c.writers.map Writer.request) request
      obtain ⟨hwriters, hbuffer, hwritten, hkeep, hclose⟩ :=
        dispatch_reliable hsocket hready request consumed response
      have hrequests : ((c.beginDispatch request consumed).callHandler env
          ⟨some response, false⟩).writers.map Writer.request =
            c.writers.map Writer.request ++ [request] := by
        rw [hwriters, map_append]
        rfl
      have hdone' := hdone.append request response
      rw [← hwriters] at hdone'
      rw [if_neg (by omega), hcall]
      rw [if_neg Bool.false_ne_true]
      cases hkeepAlive : request.shouldKeepAlive with
      | true =>
        refine ih (hkeep hkeepAlive) hdone' ?_ ?_
        · rw [hrequests, hwritten, hbuffer]
          exact hcont.next hparse hcall hkeepAlive
        · rw [hbuffer, length_drop]
          omega
      | false =>
        have hending := hclose hkeepAlive
        have hat : At env stream unread ((c.beginDispatch request consumed).callHandler env
            ⟨some response, false⟩) := by
          refine .ended hending hdone' ?_
          rw [hrequests, hwritten]
          exact hcont.last hparse hcall hkeepAlive
        cases fuel with
        | zero => exact hat
        | succ fuel =>
          unfold Http1Connection.tryProcess
          rw [if_pos (.inr hending.closing)]
          exact hat

/-- A read brings the connection on, and no other event but its end changes where it is. -/
theorem At.step (h : At env stream (event.received ++ unread) c) (hevent : event ≠ .fail) :
    At env stream unread (c.step env event) := by
  cases event with
  | fail => exact absurd rfl hevent
  | data bytes =>
    unfold Http1Connection.step
    dsimp only
    cases h with
    | waiting hready hdone hparse hshort hcont =>
      rw [if_neg (by rw [hready.opened]; exact Bool.false_ne_true)]
      unfold Http1Connection.onData
      rw [if_neg (by rw [hready.phase, hready.closing]; simp)]
      refine At.tryProcess hsocket hsync hfit ?_ hdone ?_ (Nat.lt_succ_self _)
      · exact { hready with }
      · dsimp only
        rw [append_assoc]
        exact hcont
    | ended hending hdone hserves =>
      split
      · exact .ended hending hdone hserves
      unfold Http1Connection.onData
      rw [if_pos (.inl hending.closing)]
      exact .ended { hending with } hdone hserves
  | writable =>
    unfold Http1Connection.step
    cases h with
    | waiting hready hdone hparse hshort hcont =>
      obtain ⟨hclosed, hgoes⟩ := BufferedConnection.onWritable_of_reliable hsocket hready.goes
      rw [onConn_of_open hclosed]
      refine .waiting { hready with opened := hclosed.trans hready.opened, goes := hgoes } hdone
        hparse hshort ?_
      rw [BufferedConnection.written_onWritable]
      exact hcont
    | ended hending hdone hserves =>
      refine .ended ⟨phase_onConn hending.phase, ?_, ?_⟩ ?_ ?_
      · rw [closing_onConn, hending.closing]
        rfl
      · rw [conn_onConn]
        exact BufferedConnection.draining_onWritable hending.draining
      · rw [writers_onConn]
        exact hdone
      · rw [writers_onConn, conn_onConn, BufferedConnection.written_onWritable]
        exact hserves
  | complete n response =>
    unfold Http1Connection.step
    dsimp only
    have hdone : Answered c.writers := by
      cases h with
      | waiting _ hdone | ended _ hdone => exact hdone
    rw [complete_of_answered hdone]
    exact h

theorem At.run (h : At env stream (events.flatMap Event.received ++ unread) c)
    (hevents : .fail ∉ events) :
    At env stream unread (Machine.run (Http1Connection.step env) c events) := by
  induction events generalizing c with
  | nil => exact h
  | cons event events ih =>
    rw [flatMap_cons, append_assoc] at h
    rw [mem_cons, not_or] at hevents
    exact ih (At.step hsocket hsync hfit h (Ne.symm hevents.1)) hevents.2

theorem At.start (ctx : IOContext) (hstream : stream = initialBuffer ++ unread) :
    At env stream unread (start env ctx initialBuffer) := by
  subst hstream
  unfold Http1Connection.start
  split
  · exact At.tryProcess hsocket hsync hfit ⟨rfl, rfl, rfl, rfl⟩ nofun (.refl env _)
      (Nat.lt_succ_self _)
  next hnil =>
    rw [not_not] at hnil
    subst hnil
    exact .waiting ⟨rfl, rfl, rfl, rfl⟩ nofun rfl (Nat.zero_lt_succ _) (.refl env _)

end Reads

/-- At the end of the stream, everything was served that it holds. -/
theorem At.serves (h : At env stream [] c) :
    Serves env [] stream (c.writers.map Writer.request) c.conn.written c.closing := by
  cases h with
  | waiting hready _ hparse hshort hcont =>
    rw [append_nil] at hcont
    rw [hready.closing]
    exact hcont.wait hparse hshort
  | ended hending _ hserves =>
    rw [hending.closing]
    exact hserves

theorem At.closed (h : At env stream unread c) (hsent : c.conn.pending = []) :
    c.conn.closed = c.closing := by
  cases h with
  | waiting hready => rw [hready.opened, hready.closing]
  | ended hending =>
    rw [hending.closing]
    exact hending.draining.resolve_right fun hpending => hpending.2 hsent

end Http1Connection

/-! ## The coroutine -/

namespace CoroutineConnection

variable {env : Env} {c : CoroutineConnection}

/-- How far the coroutine has come with the stream, of which this is unread. -/
inductive At (env : Env) (stream unread : Bytes) (c : CoroutineConnection) : Prop where
  | waiting : c.suspension = .priming ∨ c.suspension = .reading → Answered c.writers →
    parseRequest env.order c.buffer = .incomplete → c.buffer.length < kMaxRequestBytes →
    Warm env.tables (c.buffer ++ unread) c.buckets →
    Continues env stream (c.writers.map Writer.request) c.written (c.buffer ++ unread) →
    At env stream unread c
  | writing : c.suspension = .writing true → Answered c.writers → c.buckets = 0 →
    Continues env stream (c.writers.map Writer.request) c.written (c.buffer ++ unread) →
    At env stream unread c
  | ended : c.suspension = .writing false ∨ c.suspension = .refusing ∨ c.suspension = .finished →
    Answered c.writers → Serves env [] stream (c.writers.map Writer.request) c.written true →
    At env stream unread c

theorem At.refused (hfit : RequestsFit env.order stream) (hdone : Answered c.writers)
    (hcont : Continues env stream (c.writers.map Writer.request) c.written (c.buffer ++ unread))
    (hrefuse : Refused env.order c.buffer) :
    At env stream unread (c.refuse env) :=
  .ended (.inr (.inl rfl)) hdone (hcont.refuse hfit hrefuse)

def Event.received : Event → Bytes
  | .read bytes => bytes
  | .complete _ _ | .wrote => []

def received (initialBuffer : Bytes) (events : List Event) : Bytes :=
  initialBuffer ++ events.flatMap Event.received

theorem complete_of_answered (h : Answered c.writers) (n : Nat) (response : HTTPResponse) :
    c.complete env n response = c := by
  unfold complete
  split
  next hn => cases h _ (mem_of_getElem? hn)
  · rfl

section Reads

variable {stream unread : Bytes} (hsync : Synchronous env.handler)
  (hfit : RequestsFit env.order stream) (hsteady : SteadyRequests env.tables stream)

include hsync hfit hsteady

/-- From the head of the loop to the next suspension. -/
theorem At.serve (hdone : Answered c.writers)
    (hwarm : Warm env.tables (c.buffer ++ unread) c.buckets)
    (hcont : Continues env stream (c.writers.map Writer.request) c.written (c.buffer ++ unread)) :
    At env stream unread (c.serve env) := by
  unfold CoroutineConnection.serve
  rw [hwarm.parseRequest_eq (hsteady _ _ hcont.wire)]
  split
  next hparse =>
    split
    next hshort => exact .waiting (.inr rfl) hdone hparse hshort hwarm.grow hcont
    next hlong => exact .refused hfit hdone hcont (.inr ⟨hparse, by omega⟩)
  next hparse => exact .refused hfit hdone hcont (.inl hparse)
  next request consumed hparse =>
    have hle := parseRequest_le hparse
    obtain ⟨response, hcall⟩ := hsync (c.writers.map Writer.request) request
    have hrequests : (c.writers ++ [(⟨request, some response⟩ : Writer)]).map Writer.request =
        c.writers.map Writer.request ++ [request] := by
      rw [map_append]
      rfl
    rw [if_neg (by omega)]
    unfold dispatch
    rw [hcall]
    rw [if_neg Bool.false_ne_true]
    cases hkeep : request.shouldKeepAlive with
    | true =>
      refine .writing (congrArg _ hkeep) (hdone.append request response) rfl ?_
      unfold respond
      rw [hrequests]
      exact hcont.next hparse hcall hkeep
    | false =>
      refine .ended (.inl (congrArg _ hkeep)) (hdone.append request response) ?_
      unfold respond
      rw [hrequests]
      exact hcont.last hparse hcall hkeep

theorem At.read (h : At env stream (bytes ++ unread) c) (hreads : c.Reads (.read bytes)) :
    At env stream unread (c.step env (.read bytes)) := by
  obtain ⟨hne, hlimit⟩ := hreads
  have hstuck (hchunk : readChunk c.suspension = 0) : False := by
    rw [hchunk, Nat.le_zero, length_eq_zero_iff] at hlimit
    exact hne hlimit
  cases h with
  | waiting hsuspension hdone hparse hshort hwarm hcont =>
    have hread : At env stream unread (c.onRead env bytes) := by
      unfold onRead
      rw [if_neg hne]
      refine At.serve hsync hfit hsteady hdone ?_ ?_
      · rw [append_assoc]
        exact hwarm
      · rw [append_assoc]
        exact hcont
    unfold CoroutineConnection.step
    obtain hs | hs := hsuspension
    all_goals
      rw [hs]
      exact hread
  | writing hsuspension => exact (hstuck (by rw [hsuspension]; rfl)).elim
  | ended hsuspension =>
    refine (hstuck ?_).elim
    obtain hs | hs | hs := hsuspension
    all_goals rw [hs]; rfl

theorem At.wrote (h : At env stream unread c) : At env stream unread (c.step env .wrote) := by
  unfold CoroutineConnection.step
  cases h with
  | waiting hsuspension hdone hparse hshort hwarm hcont =>
    have hat : At env stream unread c := .waiting hsuspension hdone hparse hshort hwarm hcont
    obtain hs | hs := hsuspension
    all_goals
      rw [hs]
      exact hat
  | writing hsuspension hdone hnew hcont =>
    have hwarm : Warm env.tables (c.buffer ++ unread) c.buckets := hnew ▸ .new env.tables _
    rw [hsuspension]
    exact At.serve hsync hfit hsteady hdone hwarm hcont
  | ended hsuspension hdone hserves =>
    obtain hs | hs | hs := hsuspension
    · rw [hs]
      exact .ended (.inr (.inr rfl)) hdone hserves
    · rw [hs]
      exact .ended (.inr (.inr rfl)) hdone hserves
    · rw [hs]
      exact .ended (.inr (.inr hs)) hdone hserves

theorem At.step (h : At env stream (event.received ++ unread) c) (hreads : c.Reads event) :
    At env stream unread (c.step env event) := by
  cases event with
  | read bytes => exact At.read hsync hfit hsteady h hreads
  | wrote => exact At.wrote hsync hfit hsteady h
  | complete n response =>
    have hdone : Answered c.writers := by
      cases h with
      | waiting _ hdone | writing _ hdone | ended _ hdone => exact hdone
    unfold CoroutineConnection.step
    dsimp only
    rw [complete_of_answered hdone]
    exact h

theorem At.run (h : At env stream (events.flatMap Event.received ++ unread) c)
    (hreads : Machine.AllSteps (CoroutineConnection.step env) Reads c events) :
    At env stream unread (Machine.run (CoroutineConnection.step env) c events) := by
  induction events generalizing c with
  | nil => exact h
  | cons event events ih =>
    rw [flatMap_cons, append_assoc] at h
    exact ih (At.step hsync hfit hsteady h hreads.1) hreads.2

theorem At.start (ctx : IOContext) (hstream : stream = initialBuffer ++ unread) :
    At env stream unread (start env ctx initialBuffer) := by
  subst hstream
  unfold CoroutineConnection.start
  split
  next hnil =>
    subst hnil
    exact .waiting (.inl rfl) nofun rfl (Nat.zero_lt_succ _) (.new env.tables _) (.refl env _)
  · exact At.serve hsync hfit hsteady nofun (.new env.tables _) (.refl env _)

end Reads

/-- The coroutine is through with the stream: it has ended, or it waits for bytes that do not
come. -/
def Through (unread : Bytes) (c : CoroutineConnection) : Prop :=
  c.suspension = .finished ∨
    (c.suspension = .priming ∨ c.suspension = .reading) ∧ unread = []

theorem At.serves (h : At env stream unread c) (hthrough : c.Through unread) :
    Serves env [] stream (c.writers.map Writer.request) c.written
      (c.suspension = .finished) := by
  cases h with
  | waiting hsuspension _ hparse hshort _ hcont =>
    obtain hs | ⟨hs, rfl⟩ := hthrough
    · obtain hs' | hs' := hsuspension
      all_goals cases hs.symm.trans hs'
    rw [append_nil] at hcont
    have hopen : c.suspension ≠ .finished := by
      obtain hs' | hs' := hsuspension
      all_goals rw [hs']; nofun
    rw [decide_eq_false hopen]
    exact hcont.wait hparse hshort
  | writing hsuspension =>
    obtain hs | ⟨hs | hs, -⟩ := hthrough
    all_goals cases hs.symm.trans hsuspension
  | ended hsuspension _ hserves =>
    obtain hs | ⟨hs, -⟩ := hthrough
    · rw [hs]
      exact hserves
    obtain hs | hs := hs
    all_goals
      obtain hs' | hs' | hs' := hsuspension
      all_goals cases hs.symm.trans hs'

end CoroutineConnection

/-! ## Both -/

/-- The handler was called with the same requests and the same messages were written; one connection
ends exactly if the other does, and when everything is sent it is closed. -/
structure ServedAlike (r : Http1Connection) (k : CoroutineConnection) : Prop where
  requests : r.writers.map Writer.request = k.writers.map Writer.request
  written : r.conn.written = k.written
  ended : r.closing = decide (k.suspension = .finished)
  sent : r.conn.pending = [] →
    r.conn.sent = k.written.flatten ∧ r.conn.closed = decide (k.suspension = .finished)

/-- For a stream of requests within the cap whose fields keep their order, and a handler that answers
in its call, the two dispatchers come to the same, however the stream is cut. -/
theorem dispatchers_agree (env : Env) (stream : Bytes) (hsync : Synchronous env.handler)
    (hsocket : BufferedConnection.Reliable env.socket) (hfit : RequestsFit env.order stream)
    (hsteady : SteadyRequests env.tables stream)
    (ctx ctx' : IOContext) (initial initial' : Bytes) (events : List Http1Connection.Event)
    (events' : List CoroutineConnection.Event) (unread : Bytes)
    (hstream : stream = Http1Connection.received initial events) (hopen : .fail ∉ events)
    (hstream' : stream = CoroutineConnection.received initial' events' ++ unread)
    (hreads : Machine.AllSteps (CoroutineConnection.step env) CoroutineConnection.Reads
      (CoroutineConnection.start env ctx' initial') events')
    (hthrough : (CoroutineConnection.run env ctx' initial' events').Through unread) :
    ServedAlike (Http1Connection.run env ctx initial events)
      (CoroutineConnection.run env ctx' initial' events') := by
  set r := Http1Connection.run env ctx initial events
  set k := CoroutineConnection.run env ctx' initial' events'
  have hr : Http1Connection.At env stream [] r := by
    refine Http1Connection.At.run hsocket hsync hfit ?_ hopen
    rw [append_nil]
    exact Http1Connection.At.start hsocket hsync hfit ctx hstream
  have hk : CoroutineConnection.At env stream unread k := by
    rw [CoroutineConnection.received, append_assoc] at hstream'
    exact CoroutineConnection.At.run hsync hfit hsteady
      (CoroutineConnection.At.start hsync hfit hsteady ctx' hstream') hreads
  obtain ⟨hrequests, hwritten, hended⟩ := hr.serves.unique (hk.serves hthrough)
  refine ⟨hrequests, hwritten, hended, fun hsent => ⟨?_, ?_⟩⟩
  · obtain ⟨_, _, -, hinv⟩ := (Http1Connection.Inv.start env ctx initial).run events
    have hintact : r.conn.sent ++ r.conn.pending = r.conn.written.flatten := hinv.intact
    rw [hsent, append_nil, hwritten] at hintact
    exact hintact
  · rw [hr.closed hsent]
    exact hended

/-- A handler that answers at once, on a socket that takes everything. -/
def Env.answering : Env :=
  { tables := .fixed .newestFirst
    handler := fun _ _ => { response := some {} }
    socket := fun _ offered => .accepted offered }

def twoRequests : Bytes := ascii "GET / HTTP/1.1\r\n\r\nGET /a HTTP/1.1\r\n\r\n"

/-- They are served alike in one read and in two. -/
theorem dispatchers_agree_twoRequests :
    ServedAlike (Http1Connection.run .answering {} [] [.data twoRequests])
      (CoroutineConnection.run .answering {} []
        [.read (twoRequests.take 10), .read (twoRequests.drop 10), .wrote, .wrote]) := by
  have hsync : Synchronous Env.answering.handler := fun _ _ => ⟨{}, rfl⟩
  have hsocket : BufferedConnection.Reliable Env.answering.socket := nofun
  have hfit : RequestsFit Env.answering.order twoRequests :=
    requestsFit_of_length _ (by decide +kernel)
  exact dispatchers_agree .answering twoRequests hsync hsocket hfit (fun _ _ _ _ => rfl) {} {} [] []
    [.data twoRequests] [.read (twoRequests.take 10), .read (twoRequests.drop 10), .wrote, .wrote] []
    (by decide +kernel) (by decide +kernel) (by decide +kernel) (by decide +kernel)
    (.inr ⟨.inr (by decide +kernel), rfl⟩)

/-- The body comes in a second read. The reactor dispatcher, which parses into a new table each time,
hands it to the handler; the coroutine takes it for the next request. -/
theorem coroutine_loses_body :
    let env := { Env.answering with tables := .libstdcxx }
    let k := CoroutineConnection.run env {} [] [.read crowdedHead, .read (ascii "hello"), .wrote]
    k.Through [] ∧ k.writers.map (·.request.body) = [[]] ∧
      (Http1Connection.run env {} [] [.data crowdedHead, .data (ascii "hello")]).writers.map
        (·.request.body) = [ascii "hello"] :=
  ⟨.inr ⟨.inr (by decide +kernel), rfl⟩, by decide +kernel, by decide +kernel⟩

end Spaznet.Http
