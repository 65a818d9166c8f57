import Spaznet.Http2.SingleThreaded
import Spaznet.Http2.Verify.Goaway

/-!
# The two dispatchers

With a handler that answers at once, what a stream of frames comes to is said once, by
`Exchange.take`. On one thread both dispatchers come to that, however the stream is cut into
segments, and so they agree. If the socket fails, the reactor dispatcher stops in the middle.
-/

namespace Spaznet.Http2

open List ConnState Reader Effect Exchange
open Http (Bytes)
open Reactor (IOContext)
open Reactor.BufferedConnection (Reliable)

def Synchronous (handler : Handler) : Prop :=
  ∀ past request, ∃ response, handler past request = { response := some response }

/-! ## What a stream comes to -/

namespace Exchange

def write (frames : List Frame) (e : Exchange) : Exchange :=
  { e with trace := e.trace ++ frames.map .wrote }

def maxChunk (e : Exchange) : Nat :=
  let size := e.transcript.session.peerSettings.maxFrameSize
  if size > 0 then size else kMaxFrameSizeDefault

def answer (env : Env) (request : Request) (e : Exchange) : Exchange :=
  let response := (env.handler e.requests request).response.getD {}
  let frames := (response.onStream request.streamId).toFrames env.hpack e.maxChunk
  { e with
    requests := e.requests ++ [request]
    trace := e.trace ++ .delivered request.streamId response.body :: frames.map .wrote }

def fail (errorCode : Nat) (e : Exchange) : Exchange :=
  { e.write [buildGoawayFrame e.transcript.session.lastStreamIdHandled errorCode] with
    finished := true }

def perform (env : Env) (e : Exchange) : Effect → Exchange
  | .handoff request => e.answer env request
  | .fatal errorCode => e.fail errorCode
  | effect => e.write effect.reply?.toList

def enter (hpack : Hpack) (frame : Frame) (e : Exchange) : Exchange :=
  { e with
    transcript := e.transcript.receive hpack frame
    trace := e.trace ++ [.received frame] }

def takeItem (env : Env) (e : Exchange) : Item → Exchange
  | .greeting => e.write [buildSettingsFrame ourSettings false]
  | .stranger => { e with finished := true }
  | .header => e
  | .oversized => e.fail 0x6
  | .frame frame =>
    (e.transcript.effectsOf env.hpack frame).foldl (perform env) (e.enter env.hpack frame)

def take (env : Env) (e : Exchange) (item : Item) : Exchange :=
  if e.finished then e else e.takeItem env item

variable {env : Env} {e : Exchange}

theorem write_nil (e : Exchange) : e.write [] = e := by
  unfold write
  rw [map_nil, append_nil]

theorem write_append (frames frames' : List Frame) (e : Exchange) :
    (e.write frames).write frames' = e.write (frames ++ frames') := by
  unfold write
  rw [map_append, append_assoc]

theorem foldl_perform_plain {effects : List Effect} (h : ∀ effect ∈ effects, effect.isPlain = true)
    (e : Exchange) :
    effects.foldl (perform env) e = e.write (effects.filterMap reply?) := by
  induction effects generalizing e with
  | nil => exact (write_nil e).symm
  | cons effect effects ih =>
    have hhead : e.perform env effect = e.write effect.reply?.toList := by
      have hplain := h effect mem_cons_self
      cases effect with
      | handoff | fatal => cases hplain
      | _ => rfl
    rw [foldl_cons, ih fun e he => h e (mem_cons_of_mem _ he), hhead, write_append]
    cases hreply : effect.reply? with
    | none => rw [filterMap_cons_none hreply, Option.toList_none, nil_append]
    | some reply => rw [filterMap_cons_some hreply, Option.toList_some, singleton_append]

structure Regular (e : Exchange) : Prop where
  accounted : e.transcript.Accounted
  small : e.transcript.session.lastStreamIdHandled < 2 ^ 31

theorem Regular.enter (h : e.Regular) (hpack : Hpack) (hlegal : frame.Legal) :
    (e.enter hpack frame).Regular := by
  refine ⟨accounted_receive _ frame h.accounted, ?_⟩
  rw [show (e.enter hpack frame).transcript.session.lastStreamIdHandled = _ from
    (handsOff_receive hpack h.accounted.keyed frame).last]
  split
  · exact h.small
  · exact hlegal.streamId_lt

theorem transcript_perform (env : Env) (effects : List Effect) (e : Exchange) :
    (effects.foldl (perform env) e).transcript = e.transcript :=
  Machine.foldl_frame (fun e effect => by cases effect <;> rfl) e effects

theorem Regular.take (h : e.Regular)
    (hlegal : ∀ frame, item = .frame frame → frame.Legal) : (e.take env item).Regular := by
  unfold Exchange.take
  split
  · exact h
  cases item with
  | greeting | stranger => exact { h with }
  | header => exact h
  | oversized => exact { h with }
  | frame frame =>
    obtain ⟨haccounted, hsmall⟩ := h.enter env.hpack (hlegal frame rfl)
    have htranscript := transcript_perform env (e.transcript.effectsOf env.hpack frame)
      (e.enter env.hpack frame)
    exact ⟨htranscript ▸ haccounted, htranscript ▸ hsmall⟩

end Exchange

/-! ## The coroutine dispatcher -/

namespace ConnState

variable {env : Env} {c : ConnState}

/-- The dispatches are over, and as long as `serve` runs no GOAWAY frame was sent. -/
structure Ready (c : ConnState) : Prop where
  called : c.called = c.dispatches.map Dispatch.request
  unsent : c.serving = true → c.goawaySent = false

theorem map_length_toFrames (hpack : Hpack) (maxFrameSize : Nat) (response : Response) :
    ((response.toFrames hpack maxFrameSize).map fun frame =>
      { frame with length := frame.payload.length }) = response.toFrames hpack maxFrameSize := by
  refine (map_congr_left fun frame hframe => ?_).trans (map_id _)
  have hlength : frame.length = frame.payload.length := by
    obtain rfl | hframe := mem_cons.mp hframe
    · rfl
    · exact forall_mem_dataFrames (P := fun frame => frame.length = frame.payload.length)
        (fun _ _ => rfl) _ _ frame hframe
  rw [← hlength]
  rfl

theorem fail_loopEnd (errorCode : Nat) (socketClosed : Bool) (h : c.Ready)
    (hunsent : c.goawaySent = false) (hregular : c.exchange.Regular) :
    (loopEnd { c.sendGoaway errorCode with socketClosed }).exchange = c.exchange.fail errorCode ∧
      (loopEnd { c.sendGoaway errorCode with socketClosed }).Ready ∧
      (loopEnd { c.sendGoaway errorCode with socketClosed }).dispatches = c.dispatches := by
  have hgoaway : c.sendGoaway errorCode = { c with
      goawaySent := true
      trace := c.trace ++ [.wrote
        (buildGoawayFrame c.transcript.session.lastStreamIdHandled errorCode)] } := by
    have hsmall : c.transcript.session.lastStreamIdHandled < 2 ^ 31 := hregular.small
    unfold sendGoaway
    rw [hunsent, goawayPayload, Nat.mod_eq_of_lt hsmall]
    rfl
  rw [hgoaway]
  exact ⟨rfl, ⟨h.called, nofun⟩, rfl⟩

variable (hsync : Synchronous env.handler)

include hsync

theorem answer_start (request : Request) (h : c.Ready) :
    (step env { c with dispatches := c.dispatches ++ [{ request }] }
        (.start c.dispatches.length)).exchange = c.exchange.answer env request ∧
      (step env { c with dispatches := c.dispatches ++ [{ request }] }
        (.start c.dispatches.length)).Ready := by
  obtain ⟨response, hcall⟩ := hsync c.called request
  have hrequests : ((c.dispatches ++ [({ request } : Dispatch)]).set c.dispatches.length
      { request, stage := .finished }).map Dispatch.request =
        c.dispatches.map Dispatch.request ++ [request] := by
    rw [Replace.set_last, map_append]
    rfl
  have hstart : step env { c with dispatches := c.dispatches ++ [{ request }] }
      (.start c.dispatches.length) =
        respond env.hpack c.dispatches.length request response { c with
          dispatches := c.dispatches ++ [{ request }]
          ctx := c.ctx.incrementActiveRequests
          called := c.called ++ [request] } := by
    unfold step
    dsimp only
    rw [getElem?_concat_length]
    dsimp only
    unfold start
    rw [hcall]
    rfl
  have hanswer : c.exchange.answer env request = { c.exchange with
      requests := c.dispatches.map Dispatch.request ++ [request]
      trace := c.trace ++ .delivered request.streamId response.body ::
        ((response.onStream request.streamId).toFrames env.hpack c.maxChunk).map .wrote } := by
    unfold answer
    rw [show c.exchange.requests = c.called from h.called.symm, hcall, h.called]
    rfl
  rw [hstart, hanswer]
  unfold respond
  dsimp only
  rw [trace_foldl_enqueueFrame, map_length_toFrames]
  refine ⟨?_, ?_, h.unsent⟩
  · unfold exchange setStage record
    rw [hrequests, append_assoc]
    rfl
  · change c.called ++ [request] = _
    rw [h.called]
    exact hrequests.symm

theorem exchange_frame {frame : Frame} (hlegal : frame.Legal) (h : c.Ready)
    (hregular : c.exchange.Regular) (hserving : c.serving = true) :
    (c.takeInline env (.frame frame)).exchange = c.exchange.take env (.frame frame) ∧
      (c.takeInline env (.frame frame)).Ready := by
  set start := record (.received frame) { c with
    transcript := c.transcript.receive env.hpack frame } with hstart
  have hentered : start.exchange.Regular := hregular.enter env.hpack hlegal
  have htake : c.exchange.take env (.frame frame) =
      (c.transcript.effectsOf env.hpack frame).foldl (Exchange.perform env) start.exchange :=
    if_neg (by change ¬ (!c.serving) = true; rw [hserving]; decide)
  have hact : act env c (.item (.frame frame)) =
      (c.transcript.effectsOf env.hpack frame).foldl (perform frame) start :=
    if_neg (by rw [hserving]; decide)
  obtain ⟨plain, last, heffects, hplain, hlast⟩ :=
    (shaped_effectsOf env.hpack c.transcript frame).split
  set mid : ConnState := { start with
    trace := start.trace ++ (plain.filterMap reply?).map .wrote } with hmid
  have hready : mid.Ready := ⟨h.called, h.unsent⟩
  rw [takeInline, hact, htake, heffects, foldl_append, foldl_append,
    foldl_plain frame hplain (length_of_pong _ heffects), foldl_perform_plain hplain]
  change (step env (last.foldl (perform frame) mid) (.start mid.dispatches.length)).exchange =
      last.foldl (Exchange.perform env) mid.exchange ∧
    (step env (last.foldl (perform frame) mid) (.start mid.dispatches.length)).Ready
  cases hlast with
  | plain =>
    rw [foldl_nil, step_start_of_length env rfl]
    exact ⟨rfl, hready⟩
  | handoff request => exact answer_start hsync request hready
  | fatal errorCode =>
    obtain ⟨hexchange, hready', hdispatches⟩ := fail_loopEnd errorCode
      ((mid.sendGoaway errorCode).socketClosed ||
        !(frame.type = .windowUpdate && frame.payload.length ≠ 4)) hready (h.unsent hserving)
      { hentered with }
    change (step env (mid.fatal frame errorCode) _).exchange = mid.exchange.fail errorCode ∧
      (step env (mid.fatal frame errorCode) _).Ready
    have hsame : (mid.fatal frame errorCode).dispatches.length = mid.dispatches.length :=
      congrArg List.length hdispatches
    rw [step_start_of_length env hsame]
    exact ⟨hexchange, hready'⟩

theorem exchange_takeInline (hlegal : ∀ frame, item = .frame frame → frame.Legal) (h : c.Ready)
    (hregular : c.exchange.Regular) :
    (c.takeInline env item).exchange = c.exchange.take env item ∧ (c.takeInline env item).Ready := by
  cases hserving : c.serving with
  | false =>
    have hstopped : (!c.serving) = true := by
      rw [hserving]
      rfl
    have hfinished : c.exchange.take env item = c.exchange := if_pos hstopped
    rw [takeInline_of_stopped hstopped, hfinished]
    exact ⟨rfl, h⟩
  | true =>
    have hgoes : ¬ (!c.serving) = true := by
      rw [hserving]
      decide
    have htake : c.exchange.take env item = c.exchange.takeItem env item := if_neg hgoes
    have hact : act env c (.item item) = c.takeItem env.hpack item := if_neg hgoes
    have hquiet (hsame : (c.takeItem env.hpack item).dispatches = c.dispatches) :
        c.takeInline env item = c.takeItem env.hpack item := by
      rw [takeInline, hact]
      exact step_start_of_length env (congrArg List.length hsame)
    cases item with
    | frame frame => exact exchange_frame hsync (hlegal frame rfl) h hregular hserving
    | greeting =>
      rw [hquiet rfl, htake]
      exact ⟨rfl, h.called, h.unsent⟩
    | stranger =>
      rw [hquiet rfl, htake]
      exact ⟨rfl, h.called, fun h => by cases h⟩
    | header =>
      rw [hquiet rfl, htake]
      exact ⟨rfl, h⟩
    | oversized =>
      obtain ⟨hexchange, hready, hdispatches⟩ :=
        fail_loopEnd 0x6 (c.sendGoaway 0x6).socketClosed h (h.unsent hserving) hregular
      rw [hquiet hdispatches, htake]
      exact ⟨hexchange, hready⟩

theorem exchange_items {items : List Item}
    (hlegal : ∀ frame, .frame frame ∈ items → frame.Legal) (h : c.Ready)
    (hregular : c.exchange.Regular) :
    (items.foldl (takeInline env) c).exchange = items.foldl (take env) c.exchange ∧
      (items.foldl (takeInline env) c).Ready ∧
      (items.foldl (takeInline env) c).exchange.Regular := by
  induction items generalizing c with
  | nil => exact ⟨rfl, h, hregular⟩
  | cons item items ih =>
    have hhead : ∀ frame, item = .frame frame → frame.Legal :=
      fun frame heq => hlegal frame (heq ▸ mem_cons_self)
    obtain ⟨hexchange, hready⟩ := exchange_takeInline hsync hhead h hregular
    rw [foldl_cons, foldl_cons, ← hexchange]
    exact ih (fun frame hframe => hlegal frame (mem_cons_of_mem _ hframe)) hready
      (hexchange ▸ hregular.take hhead)

end ConnState

/-! ## The reactor dispatcher -/

namespace Http2Connection

variable {env : Env} {c c' : Http2Connection} {e : Exchange}

/-- The connection has come to this exchange and goes on. -/
structure Going (c : Http2Connection) (e : Exchange) : Prop where
  exchange : c.exchange = e
  closing : c.closing = false
  opened : c.conn.closed = false
  stays : c.conn.closesAfterFlush = false

structure Broken (env : Env) (c : Http2Connection) (e : Exchange) : Prop where
  unreliable : ¬ Reliable env.socket
  closing : c.closing = true
  closed : c.conn.closed = true
  requests : c.writers.map Writer.request = e.requests
  trace : c.trace <+: e.trace

/-- The connection is over because the socket has failed. -/
structure Cut (env : Env) (c : Http2Connection) (e : Exchange) : Prop where
  unreliable : ¬ Reliable env.socket
  closing : c.closing = true
  requests : c.writers.map Writer.request <+: e.requests
  trace : c.trace <+: e.trace

/-- The connection has come to this exchange, or to a part of it if the socket has failed. -/
inductive Serves (env : Env) (c : Http2Connection) (e : Exchange) : Prop where
  | going (h : Going c e) (hunsent : c.goawaySent = false)
  | ended (hexchange : c.exchange = e) (hclosing : c.closing = true)
  | cut (h : Cut env c e)

theorem Broken.cut (h : Broken env c e) : Cut env c e :=
  { h with requests := h.requests ▸ prefix_refl _ }

theorem Broken.writeFrame (h : Broken env c e) (frame : Frame) :
    Broken env (c.writeFrame env frame) (e.write [frame]) := by
  have hsends := sends_writeFrame env c frame
  have hwrites := writes_writeFrame env c frame
  obtain ⟨hclosed, htrace⟩ := hsends.closed h.closed
  refine ⟨h.unreliable, hsends.closing h.closing, hclosed, ?_, ?_⟩
  · rw [hwrites.writers]
    exact h.requests
  · rw [htrace]
    exact h.trace.trans (prefix_append _ _)

theorem Going.writeFrame (h : Going c e) (frame : Frame) :
    Going (c.writeFrame env frame) (e.write [frame]) ∨
      Broken env (c.writeFrame env frame) (e.write [frame]) := by
  obtain ⟨rfl, hclosing, hopen, hstays⟩ := h
  have hwrite : c.writeFrame env frame = { c with
      trace := c.trace ++ [.wrote frame]
      conn := c.conn.write env.socket frame.serialize
      closing := (c.conn.write env.socket frame.serialize).closed } := by
    unfold Http2Connection.writeFrame
    rw [if_neg (Bool.eq_false_iff.mp hopen), onConn_eq]
    dsimp only [record]
    rw [hclosing, hopen, Bool.false_or, Bool.not_false, Bool.and_true]
  rw [hwrite]
  cases hclosed : (c.conn.write env.socket frame.serialize).closed with
  | false =>
    refine .inl ⟨?_, rfl, hclosed, ?_⟩
    · unfold Http2Connection.exchange write
      rw [hclosing]
      rfl
    · exact (Reactor.BufferedConnection.closesAfterFlush_write _).trans hstays
  | true =>
    refine .inr ⟨fun hsocket => ?_, rfl, hclosed, rfl, prefix_refl _⟩
    rw [Reactor.BufferedConnection.closed_write_of_reliable hsocket, hopen] at hclosed
    cases hclosed

theorem write_frames (env : Env) (frames : List Frame) (h : Going c e ∨ Broken env c e) :
    Going (frames.foldl (writeFrame env) c) (e.write frames) ∨
      Broken env (frames.foldl (writeFrame env) c) (e.write frames) := by
  induction frames generalizing c e with
  | nil =>
    rw [write_nil]
    exact h
  | cons frame frames ih =>
    rw [← singleton_append, ← write_append]
    apply ih
    obtain h | h := h
    · exact h.writeFrame frame
    · exact .inr (h.writeFrame frame)

theorem goawaySent_writeFrame (env : Env) (c : Http2Connection) (frame : Frame) :
    (c.writeFrame env frame).goawaySent = c.goawaySent := by
  unfold Http2Connection.writeFrame
  rw [onConn_eq]
  split
  · rfl
  · rfl

theorem foldl_perform_plain {effects : List Effect} (h : ∀ effect ∈ effects, effect.isPlain = true)
    (c : Http2Connection) :
    effects.foldl (perform env) c =
      (effects.filterMap reply?).foldl (writeFrame env) c := by
  induction effects generalizing c with
  | nil => rfl
  | cons effect effects ih =>
    have hrest := ih (fun e he => h e (mem_cons_of_mem _ he)) (c.perform env effect)
    have hplain := h effect mem_cons_self
    cases effect with
    | handoff | fatal => cases hplain
    | _ => exact hrest

/-- The last effect of a frame dispatches a request: the handler answers, and the response is written
unless the socket has failed. -/
theorem serves_dispatch (hsync : Synchronous env.handler) (request : Request)
    (h : Going c e ∧ c.goawaySent = false ∨ Broken env c e) :
    Serves env (c.dispatchRequest env request) (e.answer env request) := by
  obtain ⟨response, hcall⟩ := hsync (c.writers.map Writer.request) request
  set delivered : Http2Connection := { c with
    ctx := c.ctx.incrementActiveRequests.decrementActiveRequests
    writers := c.writers ++ [{ request, response := some response }] } with hdelivered
  set noted := delivered.record (.delivered request.streamId response.body)
  have hrequests : delivered.writers.map Writer.request =
      c.writers.map Writer.request ++ [request] := map_append
  have hdispatch : c.dispatchRequest env request =
      if c.closing then delivered
      else ((response.onStream request.streamId).toFrames env.hpack c.maxChunk).foldl
        (writeFrame env) noted := by
    unfold dispatchRequest
    dsimp only
    rw [hcall]
    unfold complete
    rw [getElem?_beginDispatch]
    dsimp only
    unfold onResponseReady beginDispatch
    rw [Replace.set_last]
    rfl
  obtain ⟨h, hunsent⟩ | h := h
  · obtain ⟨rfl, hclosing, hopen, hstays⟩ := h
    have hanswer : c.exchange.answer env request =
        noted.exchange.write ((response.onStream request.streamId).toFrames env.hpack c.maxChunk) := by
      unfold answer write
      rw [show c.exchange.requests = c.writers.map Writer.request from rfl, hcall]
      dsimp only [noted, exchange, record]
      rw [hrequests, append_assoc]
      rfl
    have hgoing : Going noted noted.exchange := ⟨rfl, hclosing, hopen, hstays⟩
    rw [hdispatch, if_neg (Bool.eq_false_iff.mp hclosing), hanswer]
    obtain h | h := write_frames env _ (.inl hgoing)
    · exact .going h ((Machine.foldl_frame (goawaySent_writeFrame env) _ _).trans hunsent)
    · exact .cut h.cut
  · rw [hdispatch, if_pos h.closing]
    refine .cut ⟨h.unreliable, h.closing, ?_, ?_⟩
    · rw [hrequests, h.requests]
      exact prefix_refl _
    · exact h.trace.trans (prefix_append _ _)

theorem serves_fatal (errorCode : Nat) (h : Going c e ∧ c.goawaySent = false ∨ Broken env c e) :
    Serves env (c.fatal env errorCode) (e.fail errorCode) := by
  have hcut {c : Http2Connection} (h : Broken env c (e.write
      [buildGoawayFrame e.transcript.session.lastStreamIdHandled errorCode])) :
      Cut env (onConn (·.closeAfterFlush) { c with closing := true }) (e.fail errorCode) := by
    rw [onConn_eq]
    exact ⟨h.unreliable, rfl, h.requests ▸ prefix_refl _, h.trace⟩
  have hclosing := (writes_fatal env errorCode c).2
  unfold fatal at hclosing ⊢
  obtain ⟨h, hunsent⟩ | h := h
  · have hgoaway : c.sendGoaway env errorCode = writeFrame env { c with goawaySent := true }
        (buildGoawayFrame e.transcript.session.lastStreamIdHandled errorCode) := by
      rw [← h.exchange]
      exact if_neg (Bool.eq_false_iff.mp hunsent)
    have hgoing : Going { c with goawaySent := true } e := { h with }
    rw [hgoaway] at hclosing ⊢
    obtain h | h := hgoing.writeFrame (buildGoawayFrame _ errorCode)
    · refine .ended ?_ hclosing
      rw [onConn_eq]
      exact congrArg ({ · with finished := true }) h.exchange
    · exact .cut (hcut h)
  · refine .cut (hcut ?_)
    unfold sendGoaway
    split
    · exact { h with trace := h.trace.trans (prefix_append _ _) }
    have hbroken : Broken env { c with goawaySent := true } e := { h with }
    refine { hbroken.writeFrame
      (buildGoawayFrame c.transcript.session.lastStreamIdHandled errorCode) with trace := ?_ }
    rw [(sends_writeFrame env { c with goawaySent := true } _).closed h.closed |>.2]
    exact h.trace.trans (prefix_append _ _)

theorem serves_frame (hsync : Synchronous env.handler) (frame : Frame) (h : Going c e)
    (hunsent : c.goawaySent = false) :
    Serves env (c.handleFrame env frame) (e.takeItem env (.frame frame)) := by
  obtain ⟨rfl, hclosing, hopen, hstays⟩ := h
  set start := record (.received frame) { c with
    transcript := c.transcript.receive env.hpack frame } with hstart
  have hgoing : Going start (c.exchange.enter env.hpack frame) := ⟨rfl, hclosing, hopen, hstays⟩
  obtain ⟨plain, last, heffects, hplain, hlast⟩ :=
    (shaped_effectsOf env.hpack c.transcript frame).split
  have hhandle : c.handleFrame env frame =
      last.foldl (perform env) ((plain.filterMap reply?).foldl (writeFrame env) start) := by
    unfold handleFrame
    rw [heffects, foldl_append, foldl_perform_plain hplain]
  have htake : c.exchange.takeItem env (.frame frame) =
      last.foldl (Exchange.perform env)
        ((c.exchange.enter env.hpack frame).write (plain.filterMap reply?)) := by
    change (c.transcript.effectsOf env.hpack frame).foldl _ _ = _
    rw [heffects, foldl_append, Exchange.foldl_perform_plain hplain]
  have hsent := (Machine.foldl_frame (goawaySent_writeFrame env) start (plain.filterMap reply?)).trans hunsent
  have hmid := write_frames env (plain.filterMap reply?) (.inl hgoing)
  rw [hhandle, htake]
  have hmid := hmid.imp_left (And.intro · hsent)
  cases hlast with
  | plain =>
    obtain ⟨h, _⟩ | h := hmid
    · exact .going h hsent
    · exact .cut h.cut
  | handoff request => exact serves_dispatch hsync request hmid
  | fatal errorCode => exact serves_fatal errorCode hmid

theorem Cut.perform (h : Cut env c e) (effect : Effect) : Cut env c (e.perform env effect) := by
  have htrace : e.trace <+: (e.perform env effect).trace := by
    cases effect with
    | _ => exact prefix_append _ _
  have hrequests : e.requests <+: (e.perform env effect).requests := by
    cases effect with
    | handoff => exact prefix_append _ _
    | _ => exact prefix_refl _
  exact ⟨h.unreliable, h.closing, h.requests.trans hrequests, h.trace.trans htrace⟩

theorem Cut.take (h : Cut env c e) (item : Item) : Cut env c (e.take env item) := by
  have hwrite (frames : List Frame) : Cut env c (e.write frames) :=
    { h with trace := h.trace.trans (prefix_append _ _) }
  unfold Exchange.take
  split
  · exact h
  cases item with
  | greeting => exact hwrite _
  | stranger => exact { h with }
  | header => exact h
  | oversized => exact { hwrite _ with }
  | frame frame =>
    refine List.foldlRecOn _ _ ?_ fun e h effect _ => h.perform effect
    exact { h with trace := h.trace.trans (prefix_append _ _) }

theorem serves_item (hsync : Synchronous env.handler) (item : Item) (h : Serves env c e) :
    Serves env (act env c (.item item)) (e.take env item) := by
  have hstopped (hclosing : c.closing = true) : act env c (.item item) = c :=
    if_pos (by rw [stopped, hclosing, Bool.true_or])
  cases h with
  | ended hexchange hclosing =>
    have hfinished : e.take env item = e := if_pos (hexchange ▸ hclosing)
    rw [hstopped hclosing, hfinished]
    exact .ended hexchange hclosing
  | cut h =>
    rw [hstopped h.closing]
    exact .cut (h.take item)
  | going h hunsent =>
    have hact : act env c (.item item) = c.takeItem env item :=
      if_neg (by rw [stopped, h.closing, h.opened]; decide)
    have htake : e.take env item = e.takeItem env item := by
      obtain ⟨rfl, hclosing, _, _⟩ := h
      exact if_neg (Bool.eq_false_iff.mp hclosing)
    rw [hact, htake]
    cases item with
    | frame frame => exact serves_frame hsync frame h hunsent
    | header => exact .going h hunsent
    | greeting =>
      obtain h | h := h.writeFrame (buildSettingsFrame ourSettings false)
      · exact .going h ((goawaySent_writeFrame env c _).trans hunsent)
      · exact .cut h.cut
    | oversized => exact serves_fatal 0x6 (.inl ⟨h, hunsent⟩)
    | stranger =>
      obtain ⟨rfl, _, _, _⟩ := h
      have hclose : c.takeItem env .stranger = onConn (·.close) { c with closing := true } := rfl
      rw [hclose, onConn_eq]
      exact .ended rfl rfl

theorem serves_writable (h : Serves env c e) : Serves env (act env c .writable) e := by
  have hact : act env c .writable = c.onConn (·.onWritable env.socket) := rfl
  rw [hact, onConn_eq]
  cases h with
  | ended hexchange hclosing =>
    refine .ended ?_ ?_
    · unfold exchange at hexchange ⊢
      rw [hclosing, Bool.true_or, ← hclosing]
      exact hexchange
    · dsimp only
      rw [hclosing, Bool.true_or]
  | cut h =>
    refine .cut { h with closing := ?_ }
    rw [h.closing, Bool.true_or]
  | going h hunsent =>
    obtain ⟨rfl, hclosing, hopen, hstays⟩ := h
    cases hclosed : (c.conn.onWritable env.socket).closed with
    | false =>
      refine .going ⟨?_, ?_, hclosed, ?_⟩ hunsent
      · unfold exchange
        rw [Bool.false_and, Bool.or_false]
      · dsimp only
        rw [hclosing, Bool.false_and, Bool.or_false]
      · exact Reactor.BufferedConnection.closesAfterFlush_onWritable.trans hstays
    | true =>
      refine .cut ⟨fun hsocket => ?_, ?_, prefix_refl _, prefix_refl _⟩
      · rw [(Reactor.BufferedConnection.onWritable_of_reliable hsocket hstays).1, hopen] at hclosed
        cases hclosed
      · dsimp only
        rw [hopen, hclosing]
        rfl

def Event.bytes : Event → Bytes
  | .data bytes => bytes
  | _ => []

/-- Something was read, or the socket has become writable. -/
def Event.isTransfer : Event → Bool
  | .data _ | .writable => true
  | .fail | .complete _ _ => false

theorem serves_events (hsync : Synchronous env.handler)
    (hevents : ∀ event ∈ events, event.isTransfer = true) (hr : r.next? = none) (h : Serves env c e) :
    Serves env (Machine.run (act env) c (actions r events))
      ((intake.itemsOf r (events.map Event.bytes)).foldl (take env) e) := by
  have hitems (items : List Item) {c : Http2Connection} {e : Exchange} (h : Serves env c e) :
      Serves env (Machine.run (act env) c (items.map .item))
        (items.foldl (take env) e) := by
    induction items generalizing c e with
    | nil => exact h
    | cons item items ih => exact ih (serves_item hsync item h)
  induction events generalizing r c e with
  | nil => exact h
  | cons event events ih =>
    have hlater : ∀ event ∈ events, event.isTransfer = true :=
      fun event hevent => hevents event (mem_cons_of_mem _ hevent)
    rw [map_cons, Intake.itemsOf, foldl_append]
    cases event with
    | data bytes =>
      rw [actions, Machine.run_append]
      exact ih hlater (Intake.next?_rest (I := intake) _) (hitems _ h)
    | writable =>
      have hpush : intake.push (Event.bytes .writable) r = r := push_nil r
      rw [hpush, Intake.items_of_none (I := intake) hr,
        Intake.rest_of_none (I := intake) hr]
      exact ih hlater hr (serves_writable h)
    | fail => cases hevents .fail mem_cons_self
    | complete n response => cases hevents (.complete n response) mem_cons_self

end Http2Connection

/-! ## Both dispatchers -/

/-- The two dispatchers have called the handler with the same requests and written the same frames.
If the socket has failed, the reactor dispatcher has stopped before. At the end of the stream the
coroutine dispatcher may write a GOAWAY frame besides. -/
structure Agree (env : Env) (reactor : Http2Connection) (coroutine : ConnState) : Prop where
  requests : reactor.writers.map Writer.request <+: coroutine.called
  frames : writtenFrames reactor.trace <+: writtenFrames coroutine.trace
  reliable : Reliable env.socket → reactor.writers.map Writer.request = coroutine.called ∧
    writtenFrames reactor.trace = writtenFrames coroutine.trace
  eof : (Http2Connection.step env reactor .fail).trace = reactor.trace ∧
    ((step env coroutine .eof).trace = coroutine.trace ∨
      ∃ last, (step env coroutine .eof).trace = coroutine.trace ++
        [.wrote (buildGoawayFrame last 0)])

theorem trace_onEof (c : ConnState) (hregular : c.exchange.Regular) :
    c.onEof.trace = c.trace ∨
      ∃ last, c.onEof.trace = c.trace ++ [.wrote (buildGoawayFrame last 0)] := by
  have hsmall : c.transcript.session.lastStreamIdHandled < 2 ^ 31 := hregular.small
  unfold onEof
  split
  · exact .inl rfl
  split
  · exact .inl rfl
  unfold loopEnd sendGoaway
  split
  · exact .inl rfl
  refine .inr ⟨c.transcript.session.lastStreamIdHandled, ?_⟩
  rw [goawayPayload, Nat.mod_eq_of_lt hsmall]
  rfl

/-- With a handler that answers at once, on one thread, both dispatchers come to the same. -/
theorem reactor_coroutine_agree (env : Env) (hsync : Synchronous env.handler) (ctx ctx' : IOContext)
    (events : List Http2Connection.Event) (hevents : ∀ event ∈ events, event.isTransfer = true)
    (segments : List Bytes)
    (hbytes : (events.map Http2Connection.Event.bytes).flatten = segments.flatten) :
    Agree env (Http2Connection.run env ctx events) (runSingle env ctx' segments) := by
  set reactor := Http2Connection.run env ctx events
  set coroutine := runSingle env ctx' segments
  have hstart : ({} : Reader).next? = none := rfl
  have hsame (pieces : List Bytes) : intake.itemsOf {} pieces =
      intake.items (({} : Reader).push pieces.flatten) :=
    Intake.itemsOf_eq hstart (push_nil _) pieces
  set items := intake.items (({} : Reader).push segments.flatten) with hitems
  have hlegal : ∀ frame, .frame frame ∈ items → frame.Legal :=
    (sound_items _ (sound_start.push _)).2
  -- what the reactor dispatcher comes to
  have hserves : Http2Connection.Serves env
      (Machine.run (Http2Connection.act env) { ctx } (Http2Connection.actions {} events))
      (items.foldl (take env) {}) := by
    rw [hitems, ← hbytes, ← hsame]
    exact Http2Connection.serves_events hsync hevents hstart
      (.going ⟨rfl, rfl, rfl, rfl⟩ rfl)
  have hreactor : reactor.exchange =
      (Machine.run (Http2Connection.act env) { ctx } (Http2Connection.actions {} events)).exchange := by
    have hcore := congrArg Http2Connection.exchange (Http2Connection.core_run env ctx events)
    exact hcore
  -- what the coroutine dispatcher comes to
  have hcore := core_runSingle env ctx' segments
  rw [hsame] at hcore
  have hrun : coroutine.exchange =
      (items.foldl (takeInline env) { ctx := ctx' }).exchange := by
    have hexchange := congrArg exchange hcore
    exact hexchange
  have hcalled : coroutine.called =
      (items.foldl (takeInline env) { ctx := ctx' }).called := by
    have hcalled := congrArg called hcore
    exact hcalled
  have hregular : ({} : Exchange).Regular :=
    ⟨⟨nofun, fun _ => Nat.le_refl 0⟩, Nat.two_pow_pos 31⟩
  obtain ⟨hexchange, hready, hregular'⟩ := exchange_items hsync hlegal
    (c := { ctx := ctx' }) ⟨rfl, fun _ => rfl⟩ hregular
  set e := items.foldl (take env) {} with he
  have hcoroutine : coroutine.exchange = e := hrun.trans hexchange
  have hrequests : coroutine.called = e.requests :=
    hcalled.trans (hready.called.trans (congrArg requests hexchange))
  have htrace : coroutine.trace = e.trace :=
    congrArg Exchange.trace hcoroutine
  have hinit : reactor.exchange.requests <+: e.requests ∧
      reactor.exchange.trace <+: e.trace ∧
      (Reliable env.socket → reactor.exchange = e) := by
    rw [hreactor]
    cases hserves with
    | going h =>
      rw [h.exchange]
      exact ⟨prefix_refl _, prefix_refl _, fun _ => rfl⟩
    | ended h =>
      rw [h]
      exact ⟨prefix_refl _, prefix_refl _, fun _ => rfl⟩
    | cut h => exact ⟨h.requests, h.trace, fun hsocket => absurd hsocket h.unreliable⟩
  refine ⟨hrequests ▸ hinit.1, ?_, fun hsocket => ⟨?_, ?_⟩, ?_, ?_⟩
  · rw [htrace]
    exact hinit.2.1.filterMap _
  · rw [hrequests]
    exact congrArg requests (hinit.2.2 hsocket)
  · rw [htrace]
    exact congrArg (writtenFrames ∘ Exchange.trace) (hinit.2.2 hsocket)
  · change (Http2Connection.onConn (·.close) _).trace = _
    rw [Http2Connection.onConn_eq]
  · refine trace_onEof _ ?_
    rw [hrun]
    exact hregular'

def mixedFrames : List Frame :=
  [headersFrame 1 0x5, buildPingFrame [1, 2, 3, 4, 5, 6, 7, 8] false,
    buildDataFrame 3 [0x61] true]

theorem reactor_coroutine_agree_mixed :
    let bytes := kPreface ++ mixedFrames.flatMap Frame.serialize
    let reactor := Http2Connection.run (.answering {}) {} [.data (bytes.take 30), .writable,
      .data (bytes.drop 30)]
    let coroutine := runSingle (.answering {}) {} [bytes]
    reactor.writers.length = 1 ∧ (writtenFrames reactor.trace).length = 4 ∧
      Agree (.answering {}) reactor coroutine :=
  ⟨by decide +kernel, by decide +kernel,
    reactor_coroutine_agree (.answering {}) (fun _ _ => ⟨{}, rfl⟩) {} {} _ (by decide) _
      (by decide +kernel)⟩

end Spaznet.Http2
