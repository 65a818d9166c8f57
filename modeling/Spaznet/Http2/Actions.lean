import Spaznet.Http2.Reader

/-!
# Dispatchers on items

Each dispatcher as a machine that is given what was read: whatever a client sends, and however it is
cut into segments, the dispatcher takes the same actions.
-/

namespace Spaznet.Http2

open List Reader Bool
open Http (Bytes)
open Reactor (IOContext BufferedConnection)

/-! ## The reactor dispatcher on items -/

namespace Http2Connection

def reader (c : Http2Connection) : Reader := { phase := c.phase, buffer := c.buffer }

def withReader (r : Reader) (c : Http2Connection) : Http2Connection :=
  { c with phase := r.phase, buffer := r.buffer }

/-- The connection without what it has read. -/
def core (c : Http2Connection) : Http2Connection := c.withReader {}

def stopped (c : Http2Connection) : Bool := c.closing || c.conn.closed

def takeItem (env : Env) (c : Http2Connection) : Item → Http2Connection
  | .greeting => c.writeFrame env (buildSettingsFrame ourSettings false)
  | .stranger => { c with closing := true }.onConn (·.close)
  | .header => c
  | .oversized => c.fatal env 0x6
  | .frame frame => c.handleFrame env frame

/-- What happens on a connection, once the bytes of the client have been read. -/
inductive Action where
  | item (item : Item)
  | fail
  | writable
  | complete (n : Nat) (response : Response)
  deriving DecidableEq

def act (env : Env) (c : Http2Connection) : Action → Http2Connection
  | .item item => if c.stopped then c else c.takeItem env item
  | .fail => c.onConn (·.close)
  | .writable => c.onConn (·.onWritable env.socket)
  | .complete n response => c.complete env n response

def actions : Reader → List Event → List Action
  | _, [] => []
  | r, .data bytes :: events =>
    (intake.items (r.push bytes)).map .item ++
      actions (intake.rest (r.push bytes)) events
  | r, .fail :: events => .fail :: actions r events
  | r, .writable :: events => .writable :: actions r events
  | r, .complete n response :: events => .complete n response :: actions r events

theorem legal_of_mem_actions (hr : r.Sound) (h : .item (.frame frame) ∈ actions r events) :
    frame.Legal := by
  induction events generalizing r with
  | nil => cases h
  | cons event events ih =>
    cases event with
    | data bytes =>
      obtain ⟨hrest, hitems⟩ := sound_items (r.push bytes) (hr.push bytes)
      obtain hitem | hlater := mem_append.mp h
      · obtain ⟨item, hmem, heq⟩ := mem_map.mp hitem
        cases heq
        exact hitems frame hmem
      · exact ih hrest hlater
    | fail | writable | complete => exact ih hr ((mem_cons.mp h).resolve_left nofun)

/-! What the connection does with an item does not depend on what it has read besides. -/

variable {env : Env} {c : Http2Connection} (r : Reader)

theorem onConn_withReader (f : BufferedConnection → BufferedConnection) (c : Http2Connection) :
    (c.withReader r).onConn f = (c.onConn f).withReader r := by
  rw [onConn_eq, onConn_eq]
  rfl

theorem writeFrame_withReader (c : Http2Connection) (frame : Frame) :
    (c.withReader r).writeFrame env frame = (c.writeFrame env frame).withReader r := by
  unfold writeFrame
  rw [← onConn_withReader, apply_ite (withReader r)]
  rfl

theorem foldl_writeFrame_withReader (frames : List Frame) (c : Http2Connection) :
    frames.foldl (writeFrame env) (c.withReader r) =
      (frames.foldl (writeFrame env) c).withReader r :=
  foldl_hom (withReader r) (writeFrame_withReader r)

theorem fatal_withReader (errorCode : Nat) (c : Http2Connection) :
    (c.withReader r).fatal env errorCode = (c.fatal env errorCode).withReader r := by
  have hgoaway : (c.withReader r).sendGoaway env errorCode =
      (c.sendGoaway env errorCode).withReader r := by
    refine Eq.trans ?_ (apply_ite (withReader r) ..).symm
    exact ite_congr rfl (fun _ => rfl) fun _ =>
      writeFrame_withReader r { c with goawaySent := true } _
  unfold fatal
  rw [hgoaway]
  exact onConn_withReader r _ { c.sendGoaway env errorCode with closing := true }

theorem complete_withReader (n : Nat) (response : Response) (c : Http2Connection) :
    (c.withReader r).complete env n response = (c.complete env n response).withReader r := by
  unfold complete
  dsimp only [withReader]
  split
  · unfold onResponseReady
    dsimp only
    split
    · rfl
    exact foldl_writeFrame_withReader r _ (record _ { c with
      ctx := c.ctx.decrementActiveRequests
      writers := c.writers.set n _ })
  · rfl

theorem dispatchRequest_withReader (request : Request) (c : Http2Connection) :
    (c.withReader r).dispatchRequest env request =
      (c.dispatchRequest env request).withReader r := by
  unfold dispatchRequest
  dsimp only [withReader]
  split
  · exact complete_withReader r _ _ (c.beginDispatch request)
  split
  · exact writeFrame_withReader r { c.beginDispatch request with
      ctx := (c.beginDispatch request).ctx.decrementActiveRequests
      writers := (c.beginDispatch request).writers.set c.writers.length _ } _
  · rfl

theorem perform_withReader (c : Http2Connection) (effect : Effect) :
    (c.withReader r).perform env effect = (c.perform env effect).withReader r := by
  cases effect with
  | opened => rfl
  | settingsAck | pong | windowUpdate | rstStream => exact writeFrame_withReader r c _
  | handoff request => exact dispatchRequest_withReader r request c
  | fatal errorCode => exact fatal_withReader r errorCode c

theorem foldl_perform_withReader (effects : List Effect) (c : Http2Connection) :
    effects.foldl (perform env) (c.withReader r) =
      (effects.foldl (perform env) c).withReader r :=
  foldl_hom (withReader r) (perform_withReader r)

theorem takeItem_withReader (item : Item) (c : Http2Connection) :
    (c.withReader r).takeItem env item = (c.takeItem env item).withReader r := by
  cases item with
  | greeting => exact writeFrame_withReader r c _
  | stranger => exact onConn_withReader r _ { c with closing := true }
  | header => rfl
  | oversized => exact fatal_withReader r 0x6 c
  | frame frame => exact foldl_perform_withReader r _ (record (.received frame) { c with
      transcript := c.transcript.receive env.hpack frame })

/-! ## The loop and the items -/

theorem tryProcess_of_stopped (h : c.stopped = true) (fuel : Nat) : c.tryProcess env fuel = c := by
  rw [stopped, or_eq_true] at h
  cases fuel with
  | zero => rfl
  | succ fuel =>
    unfold tryProcess
    split
    · rfl
    next hclosing =>
      rw [if_pos (h.resolve_left hclosing)]

/-- A round of the loop takes an item. What a stranger has sent is left where it is. -/
theorem tryProcess_succ (env : Env) (hgoes : c.stopped = false) (fuel : Nat) :
    c.tryProcess env (fuel + 1) = c.reader.next?.elim c fun p =>
      if p.1 = .stranger then c.takeItem env .stranger
      else ((c.withReader p.2).takeItem env p.1).tryProcess env fuel := by
  rw [stopped, or_eq_false_iff] at hgoes
  rw [tryProcess, if_neg (eq_false_iff.mp hgoes.1), if_neg (eq_false_iff.mp hgoes.2)]
  refine Eq.trans ?_ (c.reader.round_eq c _)
  obtain ⟨ctx, conn, buffer, phase, closing, goawaySent, transcript, writers, trace⟩ := c
  cases phase with
  | preface => rfl
  | frameHeader =>
    refine ite_congr rfl (fun _ => rfl) fun _ => ite_congr rfl (fun _ => ?_) fun _ => rfl
    refine (tryProcess_of_stopped ?_ fuel).symm
    rw [stopped, (writes_fatal env _ _).2, Bool.true_or]
  | framePayload => rfl

theorem tryProcess_of_none (h : c.reader.next? = none) (fuel : Nat) :
    c.tryProcess env fuel = c := by
  cases fuel with
  | zero => rfl
  | succ fuel =>
    cases hstopped : c.stopped with
    | true => exact tryProcess_of_stopped hstopped _
    | false =>
      rw [tryProcess_succ env hstopped, h]
      rfl

def driver (env : Env) : intake.Driver Http2Connection :=
  { reader
    withReader
    stopped
    take := takeItem env
    loop := tryProcess env
    reader_withReader := fun _ _ => rfl
    withReader_reader := fun _ => rfl
    withReader_withReader := fun _ _ _ => rfl
    stopped_withReader := fun _ _ => rfl
    take_withReader := fun r c item => takeItem_withReader r item c
    loop_zero := fun _ => rfl
    loop_of_stopped := fun fuel _ h => tryProcess_of_stopped h fuel
    loop_of_none := fun fuel _ h => tryProcess_of_none h fuel
    loop_of_some := fun fuel c item r hgoes h => by
      have hround := tryProcess_succ env hgoes fuel
      rw [show c.reader.next? = some (item, r) from h, Option.elim_some] at hround
      by_cases hstranger : item = .stranger
      · rw [if_pos hstranger] at hround
        subst hstranger
        refine .inr ⟨?_, c.reader, hround.trans (takeItem_withReader c.reader .stranger c)⟩
        unfold takeItem
        rw [onConn_eq]
        rfl
      · rw [if_neg hstranger] at hround
        exact .inl hround }

theorem stopped_of_writes {frames : List Frame} (h : Writes frames c c')
    (hstopped : c.stopped = true) : c'.stopped = true := by
  rw [stopped, or_eq_true] at hstopped ⊢
  exact hstopped.imp h.closing h.closed

theorem stopped_complete (n : Nat) (response : Response)
    (h : c.stopped = true) : (c.complete env n response).stopped = true := by
  unfold complete
  split
  · unfold onResponseReady
    dsimp only
    split
    · exact h
    · exact stopped_of_writes (writes_foldl env _ _) h
  · exact h

theorem took_data {r : Reader} (h : (driver env).Took r c a) (bytes : Bytes) :
    (driver env).Took (intake.rest (r.push bytes)) (step env c (.data bytes))
      (Machine.run (act env) a ((intake.items (r.push bytes)).map .item)) := by
  rw [Machine.run, foldl_map]
  refine h.feed bytes (fun hstopped => ?_) fun hgoes => ?_
  · by_cases hclosed : c.conn.closed = true
    · -- the bytes are dropped
      exact ⟨c.reader, if_pos hclosed⟩
    · have hclosing : c.closing = true := (or_eq_true_iff.mp hstopped).resolve_right hclosed
      exact ⟨c.reader.push bytes, (if_neg hclosed).trans (if_pos hclosing)⟩
  · obtain ⟨hclosing, hclosed⟩ := or_eq_false_iff.mp hgoes
    exact ⟨_, bound_le _, (if_neg (eq_false_iff.mp hclosed)).trans
      (if_neg (eq_false_iff.mp hclosing))⟩

/-- The events of a connection come to the actions that are read off them. -/
theorem took_run (env : Env) (events : List Event) {r : Reader}
    (h : (driver env).Took r c a) (hr : r.Idle) :
    ∃ r', r'.Idle ∧ (driver env).Took r' (Machine.run (step env) c events)
      (Machine.run (act env) a (actions r events)) := by
  induction events generalizing r c a with
  | nil => exact ⟨r, hr, h⟩
  | cons event events ih =>
    cases event with
    | data bytes =>
      rw [actions, Machine.run_append]
      exact ih (took_data h bytes) ⟨intake.next?_rest _, (sound_items _ (hr.sound.push bytes)).1⟩
    | fail =>
      exact ih (h.apply (fun r c => onConn_withReader r _ c)
        fun c hstopped => stopped_of_writes writes_close hstopped) hr
    | writable =>
      exact ih (h.apply (fun r c => onConn_withReader r _ c)
        fun c hstopped => stopped_of_writes writes_onWritable hstopped) hr
    | complete n response =>
      exact ih (h.apply (fun r c => complete_withReader r n response c)
        fun c hstopped => stopped_complete n response hstopped) hr

/-- A connection is where the actions have led it. -/
theorem core_run (env : Env) (ctx : IOContext) (events : List Event) :
    (run env ctx events).core = (Machine.run (act env) { ctx } (actions {} events)).core := by
  obtain ⟨_, -, h⟩ := took_run env events (c := { ctx }) (.refl _) idle_start
  obtain ⟨_, hlike⟩ := h.like
  exact (congrArg core hlike).trans rfl

theorem actions_split (before after : List Event) (xs ys : Bytes) (r : Reader) :
    actions r (before ++ .data (xs ++ ys) :: after) =
      actions r (before ++ .data xs :: .data ys :: after) := by
  induction before generalizing r with
  | nil =>
    have hitems : intake.items (r.push (xs ++ ys)) = _ := Intake.items_push_append xs ys r
    have hrest : intake.rest (r.push (xs ++ ys)) = _ := Intake.rest_push_append xs ys r
    simp only [nil_append, actions]
    rw [hitems, hrest, map_append, append_assoc]
    rfl
  | cons event before ih => cases event <;> simp only [cons_append, actions, ih]

/-- **Segmentation.** It makes no difference, whatever else goes on, if bytes of the client arrive
at once or in two segments. -/
theorem core_run_split (env : Env) (ctx : IOContext) (before after : List Event) (xs ys : Bytes) :
    (run env ctx (before ++ .data (xs ++ ys) :: after)).core =
      (run env ctx (before ++ .data xs :: .data ys :: after)).core := by
  rw [core_run, core_run, actions_split]

end Http2Connection

/-! ## The coroutine dispatcher on items -/

namespace ConnState

def reader (c : ConnState) : Reader := { phase := c.phase, buffer := c.buffer }

def withReader (r : Reader) (c : ConnState) : ConnState :=
  { c with phase := r.phase, buffer := r.buffer }

def core (c : ConnState) : ConnState := c.withReader {}

def takeItem (hpack : Hpack) (c : ConnState) : Item → ConnState
  | .greeting => c.enqueueFrame (buildSettingsFrame ourSettings false)
  | .stranger => { c with socketClosed := true, serving := false }
  | .header => c
  | .oversized => (c.sendGoaway 0x6).loopEnd
  | .frame frame => c.handleFrame hpack frame

variable {hpack : Hpack} {c : ConnState} (r : Reader)

theorem sendGoaway_withReader (errorCode : Nat) (c : ConnState) :
    (c.withReader r).sendGoaway errorCode = (c.sendGoaway errorCode).withReader r := by
  unfold sendGoaway
  rw [apply_ite (withReader r)]
  rfl

theorem loopEnd_withReader (c : ConnState) :
    (c.withReader r).loopEnd = c.loopEnd.withReader r := by
  unfold loopEnd
  rw [sendGoaway_withReader]
  rfl

theorem perform_withReader (frame : Frame) (c : ConnState) (effect : Effect) :
    (c.withReader r).perform frame effect = (c.perform frame effect).withReader r := by
  cases effect with
  | opened | settingsAck | pong | windowUpdate | rstStream | handoff => rfl
  | fatal errorCode =>
    change fatal frame errorCode _ = _
    unfold fatal
    rw [sendGoaway_withReader]
    exact loopEnd_withReader r { c.sendGoaway errorCode with socketClosed := _ }

theorem foldl_perform_withReader (frame : Frame) (effects : List Effect) (c : ConnState) :
    effects.foldl (perform frame) (c.withReader r) =
      (effects.foldl (perform frame) c).withReader r :=
  foldl_hom (withReader r) (perform_withReader r frame)

theorem takeItem_withReader (item : Item) (c : ConnState) :
    (c.withReader r).takeItem hpack item = (c.takeItem hpack item).withReader r := by
  cases item with
  | greeting | stranger | header => rfl
  | oversized =>
    change ((c.withReader r).sendGoaway 0x6).loopEnd = _
    rw [sendGoaway_withReader, loopEnd_withReader]
    rfl
  | frame frame => exact foldl_perform_withReader r frame _ (record (.received frame) { c with
      transcript := c.transcript.receive hpack frame })

theorem serve_of_stopped (h : (!c.serving) = true) (fuel : Nat) : c.serve hpack fuel = c := by
  cases fuel with
  | zero => rfl
  | succ fuel => rw [serve, if_pos h]

theorem serve_succ (hpack : Hpack) (hserving : (!c.serving) = false) (fuel : Nat) :
    c.serve hpack (fuel + 1) = c.reader.next?.elim c fun p =>
      if p.1 = .stranger then c.takeItem hpack .stranger
      else ((c.withReader p.2).takeItem hpack p.1).serve hpack fuel := by
  rw [serve, if_neg (eq_false_iff.mp hserving)]
  refine Eq.trans ?_ (c.reader.round_eq c _)
  obtain ⟨ctx, buffer, phase, serving, socketClosed, goawaySent, transcript, dispatches, called,
    trace⟩ := c
  cases phase with
  | preface => rfl
  | frameHeader =>
    refine ite_congr rfl (fun _ => rfl) fun _ => ite_congr rfl (fun _ => ?_) fun _ => rfl
    exact (serve_of_stopped (by exact rfl) fuel).symm
  | framePayload => rfl

theorem serve_of_none (h : c.reader.next? = none) (fuel : Nat) : c.serve hpack fuel = c := by
  cases fuel with
  | zero => rfl
  | succ fuel =>
    cases hserving : !c.serving with
    | true => exact serve_of_stopped hserving _
    | false =>
      rw [serve_succ hpack hserving, h]
      rfl

def driver (hpack : Hpack) : intake.Driver ConnState :=
  { reader
    withReader
    stopped := fun c => !c.serving
    take := takeItem hpack
    loop := serve hpack
    reader_withReader := fun _ _ => rfl
    withReader_reader := fun _ => rfl
    withReader_withReader := fun _ _ _ => rfl
    stopped_withReader := fun _ _ => rfl
    take_withReader := fun r c item => takeItem_withReader r item c
    loop_zero := fun _ => rfl
    loop_of_stopped := fun fuel _ h => serve_of_stopped h fuel
    loop_of_none := fun fuel _ h => serve_of_none h fuel
    loop_of_some := fun fuel c item r hgoes h => by
      have hround := serve_succ hpack hgoes fuel
      rw [show c.reader.next? = some (item, r) from h, Option.elim_some] at hround
      by_cases hstranger : item = .stranger
      · rw [if_pos hstranger] at hround
        subst hstranger
        exact .inr ⟨rfl, c.reader, hround⟩
      · rw [if_neg hstranger] at hround
        exact .inl hround }

inductive Action where
  | item (item : Item)
  | eof
  | start (n : Nat)
  | complete (n : Nat) (response : Response)
  | resume (n : Nat)
  deriving DecidableEq

def act (env : Env) (c : ConnState) : Action → ConnState
  | .item item => if !c.serving then c else c.takeItem env.hpack item
  | .eof => if !c.serving then c else c.loopEnd
  | .start n => step env c (.start n)
  | .complete n response => step env c (.complete n response)
  | .resume n => step env c (.resume n)

/-- The actions that resumptions come to. Who ends the stream before the preface is complete is a
stranger. -/
def actions : Reader → List Resumption → List Action
  | _, [] => []
  | r, .read bytes :: resumptions =>
    (intake.items (r.push bytes)).map .item ++
      actions (intake.rest (r.push bytes)) resumptions
  | r, .eof :: resumptions =>
    (if r.phase = .preface then .item .stranger else .eof) :: actions r resumptions
  | r, .start n :: resumptions => .start n :: actions r resumptions
  | r, .complete n response :: resumptions => .complete n response :: actions r resumptions
  | r, .resume n :: resumptions => .resume n :: actions r resumptions

theorem legal_of_mem_actions {r : Reader} (hr : r.Sound)
    (h : .item (.frame frame) ∈ actions r resumptions) : frame.Legal := by
  induction resumptions generalizing r with
  | nil => cases h
  | cons resumption resumptions ih =>
    cases resumption with
    | read bytes =>
      obtain ⟨hrest, hitems⟩ := sound_items (r.push bytes) (hr.push bytes)
      obtain hitem | hlater := mem_append.mp h
      · obtain ⟨item, hmem, heq⟩ := mem_map.mp hitem
        cases heq
        exact hitems frame hmem
      · exact ih hrest hlater
    | eof =>
      refine ih hr ((mem_cons.mp h).resolve_left ?_)
      split
      · nofun
      · nofun
    | start | complete | resume => exact ih hr ((mem_cons.mp h).resolve_left nofun)

/-! The coroutines of the requests do not read, and do not make `serve` return. -/

theorem respond_withReader (serving : Bool) (n : Nat) (request : Request) (response : Response)
    (c : ConnState) :
    ({ c with serving }.withReader r).respond hpack n request response =
      { c.respond hpack n request response with serving }.withReader r := by
  unfold respond
  dsimp only
  rw [trace_foldl_enqueueFrame, trace_foldl_enqueueFrame]
  rfl

theorem start_withReader (serving : Bool) (env : Env) (n : Nat) (request : Request)
    (c : ConnState) :
    ({ c with serving }.withReader r).start env n request =
      { c.start env n request with serving }.withReader r := by
  unfold start
  dsimp only [withReader]
  split
  · rfl
  split
  · exact respond_withReader r serving n request _ { c with
      ctx := c.ctx.incrementActiveRequests
      called := c.called ++ [request] }
  · rfl

theorem step_withReader (serving : Bool) (env : Env) (c : ConnState)
    (hread : ∀ bytes, resumption ≠ .read bytes) (heof : resumption ≠ .eof) :
    step env ({ c with serving }.withReader r) resumption =
      { step env c resumption with serving }.withReader r := by
  cases resumption with
  | read bytes => exact absurd rfl (hread bytes)
  | eof => exact absurd rfl heof
  | start n =>
    unfold step
    dsimp only [withReader]
    split
    · exact start_withReader r serving env n _ c
    · rfl
  | complete n response =>
    unfold step
    dsimp only [withReader]
    split
    · rfl
    · rfl
  | resume n =>
    unfold step
    dsimp only [withReader]
    split
    · exact respond_withReader r serving n _ _ c
    · rfl

section
variable (env : Env)

theorem took_read {r : Reader} (h : (driver env.hpack).Took r c a) (bytes : Bytes) :
    (driver env.hpack).Took (intake.rest (r.push bytes)) (step env c (.read bytes))
      (Machine.run (act env) a ((intake.items (r.push bytes)).map .item)) := by
  rw [Machine.run, foldl_map]
  exact h.feed bytes (fun hstopped => ⟨c.reader, if_pos hstopped⟩) fun hgoes =>
    ⟨_, bound_le _, if_neg (eq_false_iff.mp hgoes)⟩

theorem took_eof {r : Reader} (h : (driver env.hpack).Took r c a) :
    (driver env.hpack).Took r (step env c .eof)
      (act env a (if r.phase = .preface then .item .stranger else .eof)) := by
  obtain ⟨r', rfl⟩ := h.like
  cases ha : !a.serving with
  | true =>
    have heof : step env ((driver env.hpack).withReader r' a) .eof = a.withReader r' := if_pos ha
    have hact : act env a (if r.phase = .preface then .item .stranger else .eof) = a := by
      split
      all_goals exact if_pos ha
    rwa [heof, hact]
  | false =>
    have hreads : r' = r := h.reads ha
    subst hreads
    have heof : step env ((driver env.hpack).withReader r' a) .eof = _ :=
      if_neg (eq_false_iff.mp ha)
    rw [heof]
    dsimp only [driver, withReader]
    split
    next hphase =>
      rw [if_pos hphase, act, if_neg (eq_false_iff.mp ha)]
      exact ⟨⟨r', rfl⟩, fun hgoes => nomatch hgoes⟩
    next hphase =>
      rw [if_neg hphase, act, if_neg (eq_false_iff.mp ha)]
      exact ⟨⟨r', loopEnd_withReader r' a⟩, fun hgoes => nomatch hgoes⟩

theorem took_step {r : Reader} (hread : ∀ bytes, resumption ≠ .read bytes)
    (heof : resumption ≠ .eof) (h : (driver env.hpack).Took r c a) :
    (driver env.hpack).Took r (step env c resumption) (step env a resumption) := by
  have hserving (c : ConnState) : (step env c resumption).serving = c.serving :=
    congrArg (·.serving) (step_withReader c.reader c.serving env c hread heof)
  refine h.apply (f := fun c => step env c resumption) (fun r c => ?_) fun c hstopped => ?_
  · refine (step_withReader r c.serving env c hread heof).trans ?_
    rw [← hserving c]
    rfl
  · change (!(step env c resumption).serving) = true
    rw [hserving]
    exact hstopped

theorem took_run (resumptions : List Resumption) {r : Reader} (h : (driver env.hpack).Took r c a) :
    ∃ r', (driver env.hpack).Took r' (Machine.run (step env) c resumptions)
      (Machine.run (act env) a (actions r resumptions)) := by
  induction resumptions generalizing r c a with
  | nil => exact ⟨r, h⟩
  | cons resumption resumptions ih =>
    cases resumption with
    | read bytes =>
      rw [actions, Machine.run_append]
      exact ih (took_read env h bytes)
    | eof => exact ih (took_eof env h)
    | start n | complete n response | resume n => exact ih (took_step env nofun nofun h)

theorem core_run (ctx : IOContext) (resumptions : List Resumption) :
    (run env ctx resumptions).core =
      (Machine.run (act env) { ctx } (actions {} resumptions)).core := by
  obtain ⟨_, h⟩ := took_run env resumptions (.refl { ctx })
  obtain ⟨_, hlike⟩ := h.like
  exact (congrArg core hlike).trans rfl

theorem actions_split (before after : List Resumption) (xs ys : Bytes) (r : Reader) :
    actions r (before ++ .read (xs ++ ys) :: after) =
      actions r (before ++ .read xs :: .read ys :: after) := by
  induction before generalizing r with
  | nil =>
    have hitems : intake.items (r.push (xs ++ ys)) = _ := Intake.items_push_append xs ys r
    have hrest : intake.rest (r.push (xs ++ ys)) = _ := Intake.rest_push_append xs ys r
    simp only [nil_append, actions]
    rw [hitems, hrest, map_append, append_assoc]
    rfl
  | cons resumption before ih => cases resumption <;> simp only [cons_append, actions, ih]

/-- **Segmentation**, for the coroutine dispatcher. -/
theorem core_run_read_split (ctx : IOContext) (before after : List Resumption) (xs ys : Bytes) :
    (run env ctx (before ++ .read (xs ++ ys) :: after)).core =
      (run env ctx (before ++ .read xs :: .read ys :: after)).core := by
  rw [core_run, core_run, actions_split]

end

open Exchange (Moves)

theorem moves_act (env : Env) (c : ConnState) (action : Action) :
    Moves env.hpack c.exchange (act env c action).exchange := by
  cases action with
  | item item =>
    unfold act
    dsimp only
    split
    · exact .refl
    next hserving =>
    cases item with
    | greeting => exact .single (.emit (emits_enqueueFrame c _ (by decide)))
    | stranger => exact .single (.emit ⟨rfl, rfl, fun _ => rfl, [], .nil, (append_nil _).symm⟩)
    | header => exact .refl
    | oversized => exact .single (.emit ((emits_sendGoaway 0x6 c).trans (emits_loopEnd _)))
    | frame frame =>
      rw [not_eq_true', not_eq_false] at hserving
      exact moves_handleFrame frame hserving
  | eof =>
    unfold act
    dsimp only
    split
    · exact .refl
    · exact .single (.emit (emits_loopEnd c))
  | start n =>
    unfold act step
    dsimp only
    split
    next hn => exact .single (.emit (emits_start env hn))
    · exact .refl
  | complete n response =>
    unfold act step
    dsimp only
    split
    next hn => exact .single (.emit (emits_setStage _ hn))
    · exact .refl
  | resume n =>
    unfold act step
    dsimp only
    split
    next response hn => exact .single (.emit (emits_respond response hn))
    · exact .refl

/-- The dispatcher is an exchange. -/
theorem moves_run (env : Env) (ctx : IOContext) (resumptions : List Resumption) :
    Moves env.hpack {} (run env ctx resumptions).exchange := by
  have hcore := congrArg exchange (core_run env ctx resumptions)
  have hmoves : Moves env.hpack {} (Machine.run (act env) { ctx } (actions {} resumptions)).exchange :=
    Machine.run_induction (I := fun c : ConnState => Moves env.hpack {} c.exchange)
      (fun c action h => h.trans (moves_act env c action)) .refl _
  exact hcore ▸ hmoves

end ConnState

inductive Exchange.Dispatched (env : Env) : Exchange → Prop where
  | reactor (ctx : IOContext) (events : List Http2Connection.Event) :
    Dispatched env (Http2Connection.run env ctx events).exchange
  | coroutine (ctx : IOContext) (resumptions : List ConnState.Resumption) :
    Dispatched env (ConnState.run env ctx resumptions).exchange

theorem Exchange.Dispatched.moves (h : Dispatched env e) : Moves env.hpack {} e := by
  cases h with
  | reactor ctx events => exact Http2Connection.moves_run env ctx events
  | coroutine ctx resumptions => exact ConnState.moves_run env ctx resumptions

end Spaznet.Http2
