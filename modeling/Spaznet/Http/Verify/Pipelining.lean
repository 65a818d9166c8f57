import Spaznet.Http.ReactorDispatcher

/-!
# Pipelining

Requests are dispatched one at a time, in the order of the stream, and what is written are their
responses in that order. The state of a connection is in one of three stages: it waits for a
request, it waits for the response to the last one, or it is ending.
-/

namespace Spaznet.Http

open Ascii Reactor BufferedConnection Http1Connection

/-- Every request was answered before the next was dispatched. -/
def alternate (n : Nat) : List Action := (List.range n).flatMap fun k => [.dispatch k, .answer k]

/-- The bytes that answer these requests, one message for each that has a response. -/
def answers (order : HashOrder) (writers : List Writer) : List Bytes :=
  writers.filterMap fun w => w.response.map (answerBytes order w.request)

def Answered (writers : List Writer) : Prop := ∀ w ∈ writers, w.response.isSome = true

/-- At most one request is unanswered, the last one. -/
inductive History (c : Http1Connection) : Prop where
  | settled : Answered c.writers → c.trace = alternate c.writers.length → History c
  | waiting : c.writers = ws ++ [⟨request, none⟩] → Answered ws →
    c.trace = alternate ws.length ++ [.dispatch ws.length] → History c

/-- The messages that were written: the responses to the first requests, and then at most one that
refuses what follows. -/
inductive Output (order : HashOrder) (c : Http1Connection) : Prop where
  | mk : c.writers = answered ++ rest → Answered answered → tail = [] ∨ tail = [badRequest order] →
    c.conn.written = answers order answered ++ tail → Output order c

theorem alternate_succ (n : Nat) : alternate (n + 1) = alternate n ++ [.dispatch n, .answer n] := by
  unfold alternate
  rw [List.range_succ, List.flatMap_append, List.flatMap_singleton]

section
variable (order : HashOrder) (ws : List Writer) (request : HTTPRequest)

theorem answers_waiting : answers order (ws ++ [⟨request, none⟩]) = answers order ws := by
  unfold answers
  rw [List.filterMap_append]
  exact List.append_nil _

end

theorem Answered.append (h : Answered ws) (request : HTTPRequest) (response : HTTPResponse) :
    Answered (ws ++ [{ request, response := some response }]) :=
  List.forall_mem_append.mpr ⟨h, List.forall_mem_singleton.mpr rfl⟩

/-- The writer that can still be completed is the last one. -/
theorem Answered.unanswered (h : Answered ws)
    (hn : (ws ++ [⟨request, none⟩])[n]? = some { request := request', response := none }) :
    n = ws.length ∧ request' = request := by
  by_cases hlt : n < ws.length
  · rw [List.getElem?_append_left hlt] at hn
    cases h _ (List.mem_of_getElem? hn)
  rw [List.getElem?_append_right (by omega)] at hn
  cases hk : n - ws.length with
  | zero =>
    rw [hk] at hn
    cases hn
    exact ⟨by omega, rfl⟩
  | succ k =>
    rw [hk] at hn
    cases hn

theorem Answered.unanswered_mem_rest (h : Answered answered)
    (heq : ws ++ [⟨request, none⟩] = answered ++ rest) :
    ∃ init, rest = init ++ [⟨request, none⟩] := by
  obtain rfl | ⟨init, last, rfl⟩ := List.eq_nil_or_concat rest
  · rw [List.append_nil] at heq
    cases h ⟨request, none⟩ (by rw [← heq]; exact List.mem_append_right _ (List.mem_singleton_self _))
  · rw [List.concat_eq_append, ← List.append_assoc] at heq
    cases (List.append_inj' heq rfl).2
    exact ⟨init, List.concat_eq_append⟩

namespace Http1Connection

variable {env : Env} {c : Http1Connection}

/-- The stages of a connection. -/
inductive Stage (env : Env) (c : Http1Connection) : Prop where
  | reading : c.phase = .readingRequest → c.closing = false → c.conn.closed = false →
    Answered c.writers → c.trace = alternate c.writers.length →
    c.conn.written = answers env.order c.writers → Stage env c
  | dispatching : c.phase = .dispatching → c.closing = false → c.conn.closed = false →
    c.writers = ws ++ [⟨request, none⟩] → Answered ws →
    c.trace = alternate ws.length ++ [.dispatch ws.length] →
    c.conn.written = answers env.order ws → Stage env c
  | ending : c.phase = .readingRequest → c.closing = true → History c → Output env.order c →
    Stage env c

structure Inv (env : Env) (stream : Bytes) (c : Http1Connection) : Prop where
  wire : Pipelined env.order stream (c.writers.map Writer.request) c.buffer
  intact : c.conn.Intact
  stage : Stage env c

section
variable (h : Stage env c)
include h

theorem Stage.history : History c := by
  cases h with
  | reading _ _ _ hdone htrace _ => exact .settled hdone htrace
  | dispatching _ _ _ hws hdone htrace _ => exact .waiting hws hdone htrace
  | ending _ _ hhistory _ => exact hhistory

theorem Stage.output : Output env.order c := by
  cases h with
  | reading _ _ _ hdone _ hwritten =>
    refine @Output.mk env.order c c.writers [] [] ?_ hdone (.inl rfl) ?_
    · rw [List.append_nil]
    · rw [hwritten, List.append_nil]
  | @dispatching ws request _ _ _ hws hdone _ hwritten =>
    refine @Output.mk env.order c ws [⟨request, none⟩] [] hws hdone (.inl rfl) ?_
    rw [hwritten, List.append_nil]
  | ending _ _ _ houtput => exact houtput

theorem Stage.lossless (hclosing : c.closing = false) :
    c.conn.written = answers env.order c.writers := by
  cases h with
  | reading _ _ _ _ _ hwritten => exact hwritten
  | dispatching _ _ _ hws _ _ hwritten =>
    rw [hws, answers_waiting]
    exact hwritten
  | ending _ hclosing' => cases hclosing.symm.trans hclosing'

theorem Stage.ended (hphase : c'.phase = .readingRequest)
    (hclosing : c'.closing = true) (hwriters : c'.writers = c.writers) (htrace : c'.trace = c.trace)
    (hwritten : c'.conn.written = c.conn.written) : Stage env c' := by
  refine .ending hphase hclosing ?_ ?_
  · cases h.history with
    | settled hdone ht =>
      rw [← hwriters] at hdone ht
      exact .settled hdone (htrace.trans ht)
    | waiting hws hdone ht => exact .waiting (hwriters.trans hws) hdone (htrace.trans ht)
  · obtain ⟨hws, hdone, htail, hout⟩ := h.output
    exact ⟨hwriters.trans hws, hdone, htail, hwritten.trans hout⟩

theorem Stage.frame (hphase : c'.phase = c.phase)
    (hclosing : c'.closing = c.closing) (hclosed : c'.conn.closed = c.conn.closed)
    (hwriters : c'.writers = c.writers) (htrace : c'.trace = c.trace)
    (hwritten : c'.conn.written = c.conn.written) : Stage env c' := by
  cases h with
  | reading hp hc hopen hdone ht hw =>
    rw [← hwriters] at hdone ht hw
    exact .reading (hphase.trans hp) (hclosing.trans hc) (hclosed.trans hopen) hdone
      (htrace.trans ht) (hwritten.trans hw)
  | dispatching hp hc hopen hws hdone ht hw =>
    exact .dispatching (hphase.trans hp) (hclosing.trans hc) (hclosed.trans hopen)
      (hwriters.trans hws) hdone (htrace.trans ht) (hwritten.trans hw)
  | ending hp hc hhistory houtput =>
    exact (Stage.ending hp hc hhistory houtput).ended (hphase.trans hp) (hclosing.trans hc) hwriters
      htrace hwritten

theorem Stage.onConn (hwritten : (f c.conn).written = c.conn.written)
    (hclosed : c.conn.closed = true → (f c.conn).closed = true) : Stage env (c.onConn f) := by
  obtain ⟨-, heq⟩ | ⟨hsame, heq⟩ := onConn_cases hclosed
  · refine h.ended ?_ ?_ writers_onConn trace_onConn (by rw [conn_onConn, hwritten])
    · rw [heq, phase_onClosed]
    · rw [heq, closing_onClosed]
  · rw [heq]
    exact h.frame rfl rfl hsame rfl rfl hwritten

end

theorem Stage.onResponseReady (hclosing : c.closing = false) (hopen : c.conn.closed = false)
    (hws : c.writers = ws ++ [⟨request, some response⟩]) (hdone : Answered ws)
    (htrace : c.trace = alternate (ws.length + 1)) (hwritten : c.conn.written = answers env.order ws) :
    Stage env (c.onResponseReady env id request response) := by
  unfold Http1Connection.onResponseReady
  extract_lets c' c''
  have hanswered : Answered c''.writers := by
    rw [writers_onConn, writers_countDown, hws]
    exact hdone.append request response
  have htrace' : c''.trace = alternate c''.writers.length := by
    rw [trace_onConn, trace_countDown, htrace, writers_onConn, writers_countDown, hws,
      List.length_append]
    rfl
  have hout : c''.conn.written = answers env.order c''.writers := by
    rw [conn_onConn, conn_countDown,
      written_write hopen (answerBytes_ne_nil _ _ _), hwritten, writers_onConn,
      writers_countDown, hws, answers, answers, List.filterMap_append]
    rfl
  have hphase : c''.phase = .readingRequest := phase_onConn rfl
  have hmid : Stage env c'' := by
    cases hclosed : c''.conn.closed with
    | false =>
      refine .reading hphase ?_ hclosed hanswered htrace' hout
      rw [conn_onConn] at hclosed
      rw [closing_onConn, hclosed, closing_countDown, hclosing]
      rfl
    | true =>
      refine .ending hphase ?_ (.settled hanswered htrace') ?_
      · rw [conn_onConn] at hclosed
        rw [closing_onConn, hclosed, conn_countDown, hopen, Bool.or_comm]
        rfl
      · exact ⟨(List.append_nil _).symm, hanswered, .inl rfl, by rw [List.append_nil]; exact hout⟩
  rw [if_neg (by rw [closing_countDown, hclosing]; exact Bool.false_ne_true)]
  split
  · refine Stage.onConn ?_ written_closeAfterFlush ?_
    · exact hmid.ended hphase rfl rfl rfl rfl
    · intro hclosed
      rw [closeAfterFlush_of_closed hclosed]
      exact hclosed
  · split
    · exact hmid
    · exact hmid

theorem Stage.ending_onResponseReady (h : Stage env c) (hclosing : c.closing = true)
    (request : HTTPRequest) (response : HTTPResponse) :
    Stage env (c.onResponseReady env id request response) := by
  have hclosing' : c.countDown.closing = true := by rw [closing_countDown, hclosing]
  unfold Http1Connection.onResponseReady
  rw [if_pos hclosing']
  exact h.ended rfl hclosing' writers_countDown trace_countDown (by rw [conn_countDown])

theorem Stage.complete (h : Stage env c) (n : Nat) (response : HTTPResponse) :
    Stage env (c.complete env id n response) := by
  unfold Http1Connection.complete
  split
  next request hn =>
    cases h with
    | reading _ _ _ hdone _ _ => cases hdone _ (List.mem_of_getElem? hn)
    | @dispatching ws last hphase hclosing hopen hws hdone htrace hwritten =>
      rw [hws] at hn
      obtain ⟨rfl, rfl⟩ := hdone.unanswered hn
      refine Stage.onResponseReady hclosing hopen ?_ hdone ?_ hwritten
      · rw [hws, Replace.set_last]
      · rw [htrace, alternate_succ, List.append_assoc]
        rfl
    | ending hphase hclosing hhistory houtput =>
      cases hhistory with
      | settled hdone _ => cases hdone _ (List.mem_of_getElem? hn)
      | @waiting ws last hws hdone htrace =>
        rw [hws] at hn
        obtain ⟨rfl, rfl⟩ := hdone.unanswered hn
        have hset : c.writers.set ws.length ⟨request, some response⟩ =
            ws ++ [⟨request, some response⟩] := by
          rw [hws, Replace.set_last]
        apply Stage.ending_onResponseReady (.ending ?_ ?_ ?_ ?_)
        · exact hclosing
        · exact hphase
        · exact hclosing
        · refine .settled ?_ ?_
          · rw [hset]
            exact hdone.append request response
          · rw [hset, htrace, List.length_append, List.length_singleton, alternate_succ,
              List.append_assoc]
            rfl
        · -- the message was not written, so it is behind those that were
          obtain ⟨hsplit, hanswered, htail, hout⟩ := houtput
          rename_i answered rest tail
          obtain ⟨init, rfl⟩ := hanswered.unanswered_mem_rest (hws.symm.trans hsplit)
          rw [hws, ← List.append_assoc] at hsplit
          have hsplit' : c.writers.set ws.length ⟨request, some response⟩ =
              answered ++ (init ++ [⟨request, some response⟩]) := by
            rw [hset, ← List.append_assoc, (List.append_inj' hsplit rfl).1]
          exact ⟨hsplit', hanswered, htail, hout⟩
  · exact h

/-! ## Steps -/

section
variable (h : Inv env stream c)
include h

theorem Inv.onConn
    (hintact : c.conn.Intact → (f c.conn).Intact) (hwritten : (f c.conn).written = c.conn.written)
    (hclosed : c.conn.closed = true → (f c.conn).closed = true) : Inv env stream (c.onConn f) := by
  refine ⟨?_, conn_onConn.symm ▸ hintact h.intact, h.stage.onConn hwritten hclosed⟩
  rw [writers_onConn, buffer_onConn]
  exact h.wire

theorem Inv.complete_id (n : Nat) (response : HTTPResponse) :
    Inv env stream (c.complete env id n response) := by
  obtain ⟨hrequests, hbuffer⟩ := complete_frame env n response c
  refine ⟨?_, ?_, h.stage.complete n response⟩
  · rw [hrequests, hbuffer]
    exact h.wire
  · unfold complete
    split
    · exact intact_onResponseReady env _ _ h.intact
    · exact h.intact

theorem Inv.active (active : Bool) : Inv env stream { c with dispatchCallActive := active } :=
  ⟨h.wire, h.intact, h.stage.frame rfl rfl rfl rfl rfl rfl⟩

theorem Inv.close (hphase : c.phase = .readingRequest) :
    Inv env stream ({ c with closing := true }.onConn (·.close)) := by
  have hclosing : Inv env stream { c with closing := true } :=
    ⟨h.wire, h.intact, h.stage.ended hphase rfl rfl rfl rfl⟩
  exact hclosing.onConn intact_close.mpr written_close
    fun _ => closed_close

theorem Inv.countDown : Inv env stream { c.countDown with closing := true } := by
  refine ⟨?_, ?_, h.stage.ended rfl rfl ?_ ?_ ?_⟩
  · rw [buffer_countDown]
    exact h.wire
  · rw [conn_countDown]
    exact h.intact
  · exact writers_countDown
  · exact trace_countDown
  · exact congrArg _ conn_countDown

theorem Inv.abandon : Inv env stream c.abandon := by
  unfold Http1Connection.abandon
  split
  · exact h.countDown.close rfl
  next hphase =>
    refine h.close ?_
    cases hcase : c.phase with
    | readingRequest => rfl
    | dispatching => exact absurd hcase hphase

theorem Inv.sendErrorAndClose (hphase : c.phase = .readingRequest) (hclosing : c.closing = false) :
    Inv env stream (c.sendErrorAndClose env 400 (ascii "Bad Request")) := by
  cases h.stage with
  | dispatching hphase' => cases hphase.symm.trans hphase'
  | ending _ hclosing' => cases hclosing.symm.trans hclosing'
  | reading _ _ hopen hdone htrace hwritten =>
    refine Inv.onConn ⟨?_, ?_, ?_⟩ intact_closeAfterFlush.mpr
      written_closeAfterFlush ?_
    · rw [writers_onConn, buffer_onConn]
      exact h.wire
    · rw [conn_onConn]
      exact intact_write h.intact _
    · refine .ending (phase_onConn hphase) (by rw [closing_onConn]; rfl) (.settled ?_ ?_) ?_
      · rw [writers_onConn]
        exact hdone
      · rw [trace_onConn, writers_onConn]
        exact htrace
      · refine ⟨(List.append_nil _).symm, ?_, .inr rfl, ?_⟩
        · rw [writers_onConn]
          exact hdone
        · rw [conn_onConn, writers_onConn, ← hwritten]
          exact written_write hopen (badRequest_ne_nil env.order)
    · intro hclosed
      rw [closeAfterFlush_of_closed hclosed]
      exact hclosed

theorem Inv.beginDispatch (hphase : c.phase = .readingRequest) (hclosing : c.closing = false)
    (hparse : parseRequest env.order c.buffer = .success (request, consumed)) :
    Inv env stream (c.beginDispatch request consumed) := by
  cases h.stage with
  | dispatching hphase' => cases hphase.symm.trans hphase'
  | ending _ hclosing' => cases hclosing.symm.trans hclosing'
  | reading _ _ hopen hdone htrace hwritten =>
    refine ⟨?_, h.intact, .dispatching rfl hclosing hopen rfl hdone ?_ hwritten⟩
    · unfold Http1Connection.beginDispatch
      rw [List.map_append]
      exact h.wire.snoc hparse
    · unfold Http1Connection.beginDispatch
      rw [htrace]

theorem Inv.callHandler (call : HandlerCall) : Inv env stream (c.callHandler env call) := by
  unfold Http1Connection.callHandler
  split
  · exact (h.complete_id _ _).active false
  · exact h.active false

theorem Inv.tryProcess (fuel : Nat) : Inv env stream (c.tryProcess env fuel) := by
  refine tryProcess_rule (I := Inv env stream) ?_ ?_ ?_ ?_ fuel h
  · exact fun c hphase hclosing h => h.sendErrorAndClose hphase hclosing
  · exact fun c hphase h => h.close hphase
  · intro c request consumed hphase hclosing _ hparse h
    exact (h.beginDispatch hphase hclosing hparse).callHandler _
  · exact fun c h => h.abandon

theorem Inv.complete (n : Nat) (response : HTTPResponse) :
    Inv env stream (c.complete env (process env) n response) := by
  have hid := h.complete_id n response
  obtain heq | heq := complete_eq env (process env) n response c
  · rw [heq]
    exact hid
  · rw [heq]
    exact hid.tryProcess _

theorem Inv.onData (data : Bytes) : Inv env (stream ++ data) (c.onData env data) := by
  have hbuffer : Inv env (stream ++ data) { c with buffer := c.buffer ++ data } :=
    ⟨h.wire.append data, h.intact, h.stage.frame rfl rfl rfl rfl rfl rfl⟩
  unfold Http1Connection.onData
  dsimp only
  split
  · exact hbuffer
  · exact hbuffer.tryProcess _

end

theorem Inv.start (env : Env) (ctx : IOContext) (initialBuffer : Bytes) :
    Inv env initialBuffer (start env ctx initialBuffer) := by
  have hfresh : Inv env initialBuffer { ctx, buffer := initialBuffer } :=
    ⟨.nil, rfl, .reading rfl rfl rfl nofun rfl rfl⟩
  unfold Http1Connection.start
  split
  · exact hfresh.tryProcess _
  · exact hfresh

def Event.received : Event → Bytes
  | .data bytes => bytes
  | .fail | .writable | .complete _ _ => []

def received (initialBuffer : Bytes) (events : List Event) : Bytes :=
  initialBuffer ++ events.flatMap Event.received

theorem Inv.step (h : Inv env stream c) (hopen : c.conn.closed = false) (event : Event) :
    Inv env (stream ++ event.received) (c.step env event) := by
  cases event with
  | data bytes =>
    unfold Http1Connection.step
    rw [hopen]
    exact h.onData bytes
  | fail =>
    rw [Event.received, List.append_nil]
    exact h.onConn intact_close.mpr written_close
      fun _ => closed_close
  | writable =>
    rw [Event.received, List.append_nil]
    refine h.onConn keeps_onWritable.intact_iff.mpr written_onWritable ?_
    intro hclosed
    cases hopen.symm.trans hclosed
  | complete n response =>
    rw [Event.received, List.append_nil]
    exact h.complete n response

theorem Inv.closing_of_closed (h : Inv env stream c) (hclosed : c.conn.closed = true) :
    c.closing = true := by
  cases h.stage with
  | reading _ _ hopen | dispatching _ _ hopen => cases hopen.symm.trans hclosed
  | ending _ hclosing => exact hclosing

theorem conn_complete_of_closing (hclosing : c.closing = true)
    (restart : Http1Connection → Http1Connection) (n : Nat) (response : HTTPResponse) :
    (c.complete env restart n response).conn = c.conn := by
  unfold complete
  split
  · unfold onResponseReady
    rw [if_pos (by rw [closing_countDown, hclosing]), conn_countDown]
  · rfl

/-- A connection that is closed stays closed and reads no more of the stream. -/
theorem Inv.step_of_closed (h : Inv env stream c) (hclosed : c.conn.closed = true)
    (event : Event) :
    Inv env stream (c.step env event) ∧ (c.step env event).conn.closed = true := by
  cases event with
  | data bytes =>
    unfold Http1Connection.step
    dsimp only
    rw [if_pos hclosed]
    exact ⟨h, hclosed⟩
  | fail =>
    refine ⟨h.onConn intact_close.mpr written_close
      fun _ => closed_close, ?_⟩
    unfold Http1Connection.step
    rw [conn_onConn]
    exact closed_close
  | writable =>
    have hsame : c.conn.onWritable env.socket = c.conn := if_pos hclosed
    refine ⟨h.onConn keeps_onWritable.intact_iff.mpr written_onWritable
      fun _ => by rw [hsame, hclosed], ?_⟩
    unfold Http1Connection.step
    rw [conn_onConn, hsame]
    exact hclosed
  | complete n response =>
    refine ⟨h.complete n response, ?_⟩
    unfold Http1Connection.step
    rw [conn_complete_of_closing (h.closing_of_closed hclosed)]
    exact hclosed

theorem Inv.run (h : Inv env stream c) (events : List Event) :
    ∃ more unread, events.flatMap Event.received = more ++ unread ∧
      Inv env (stream ++ more) (Machine.run (Http1Connection.step env) c events) := by
  induction events generalizing c stream with
  | nil => exact ⟨[], [], rfl, by rw [List.append_nil]; exact h⟩
  | cons event events ih =>
    cases hclosed : c.conn.closed with
    | false =>
      obtain ⟨more, unread, heq, hrun⟩ := ih (h.step hclosed event)
      refine ⟨event.received ++ more, unread, ?_, ?_⟩
      · rw [List.flatMap_cons, heq, List.append_assoc]
      · rw [← List.append_assoc]
        exact hrun
    | true =>
      refine ⟨[], _, rfl, ?_⟩
      rw [List.append_nil]
      exact (Machine.run_induction (I := fun c => Inv env stream c ∧ c.conn.closed = true)
        (fun c event hc => hc.1.step_of_closed hc.2 event) ⟨h, hclosed⟩ _).1

end Http1Connection

/-- Pipelining is kept: the requests are those of the stream in its order, one at a time, and the
messages written are their responses, of which none is missing while the connection goes on. -/
structure Pipelining (order : HashOrder) (stream : Bytes) (c : Http1Connection) : Prop where
  wire : ∃ rest, Pipelined order stream (c.writers.map Writer.request) rest
  history : History c
  output : Output order c
  lossless : c.closing = false → c.conn.written = answers order c.writers
  intact : c.conn.sent ++ c.conn.pending = c.conn.written.flatten

/-- At any time in any run, requests are answered one by one in the order of the stream. -/
theorem run_pipelining (env : Env) (ctx : IOContext) (initialBuffer : Bytes)
    (events : List Http1Connection.Event) :
    Pipelining env.order (received initialBuffer events)
      (Http1Connection.run env ctx initialBuffer events) := by
  obtain ⟨more, unread, heq, hinv⟩ :=
    (Http1Connection.Inv.start env ctx initialBuffer).run events
  have hwire := hinv.wire.append unread
  rw [List.append_assoc, ← heq] at hwire
  exact ⟨⟨_, hwire⟩, hinv.stage.history, hinv.stage.output, hinv.stage.lossless, hinv.intact⟩

end Spaznet.Http
