import Spaznet.Http2.Frame
import Spaznet.Lib.Machine
import Spaznet.Lib.OrdMap

/-!
# The frame switch

What both dispatchers of HTTP/2 do with a frame, case for case: the streams of the connection, its
settings and windows, and what is to be done besides. A dispatcher carries the effects out in their
order. `Transcript` keeps the frames that were handled, each with its effects.
-/

namespace Spaznet.Http2

open List
open Http (Bytes Headers ascii)

def kInitialWindow : Nat := 65535
def kMaxFrameSizeDefault : Nat := 16384
def kMaxHeaderListBytes : Nat := 64 * 1024
def kMaxBodyBytes : Nat := 64 * 1024 * 1024
def kMaxConcurrentStreams : Nat := 100
def kMaxFlowControlWindow : Int := 0x7FFFFFFF

def ourSettings : Settings :=
  { headerTableSize := 0
    enablePush := false
    initialWindowSize := kInitialWindow
    maxFrameSize := kMaxFrameSizeDefault
    maxConcurrentStreams := kMaxConcurrentStreams }

structure Stream where
  id : Nat := 0
  headersReceived : Bool := false
  endStreamReceived : Bool := false
  recvWindow : Int := kInitialWindow
  sendWindow : Int := kInitialWindow
  headers : Headers := []
  body : Bytes := []
  pendingHpack : Bytes := []
  deriving DecidableEq

inductive Verdict where
  | fatal (errorCode : Nat)
  | reset (errorCode : Nat)
  | keep (stream : Stream)
  | finish (stream : Stream)

namespace Stream

def request (stream : Stream) : Request :=
  { streamId := stream.id
    headers := stream.headers
    body := stream.body
    method := (stream.headers.lookup (ascii ":method")).getD []
    path := (stream.headers.lookup (ascii ":path")).getD [] }

def decode (hpack : Hpack) (stream : Stream) : Stream :=
  { stream with headers := hpack.decodeHeaders stream.pendingHpack, pendingHpack := [] }

def onHeaders (hpack : Hpack) (frame : Frame) (stream : Stream) : Verdict :=
  match frame.headerFragment with
  | none => .reset 0x1
  | some fragment =>
    let endStream := frame.has Flags.endStream
    let stream := { stream with
      id := frame.streamId
      headersReceived := true
      pendingHpack := fragment
      endStreamReceived := stream.endStreamReceived || endStream }
    if frame.has Flags.endHeaders then
      if endStream then .finish (stream.decode hpack) else .keep (stream.decode hpack)
    else .keep stream

def onContinuation (hpack : Hpack) (frame : Frame) (stream : Stream) : Verdict :=
  if !stream.headersReceived then .fatal 0x1
  else if stream.pendingHpack.length + frame.payload.length > kMaxHeaderListBytes then .fatal 0xb
  else
    let stream := { stream with pendingHpack := stream.pendingHpack ++ frame.payload }
    if frame.has Flags.endHeaders then
      if stream.endStreamReceived then .finish (stream.decode hpack)
      else .keep (stream.decode hpack)
    else .keep stream

def onData (frame : Frame) (stream : Stream) : Verdict :=
  if !stream.headersReceived then .fatal 0x1
  else match frame.unpadded with
    | none => .reset 0x1
    | some data =>
      if stream.body.length + data.length > kMaxBodyBytes then .reset 0xb
      else
        let stream := { stream with
          body := stream.body ++ data
          recvWindow := stream.recvWindow - data.length }
        if frame.has Flags.endStream then .finish { stream with endStreamReceived := true }
        else .keep stream

def onWindowUpdate (inc : Nat) (stream : Stream) : Verdict :=
  if stream.sendWindow + inc > kMaxFlowControlWindow then .reset 0x3
  else .keep { stream with sendWindow := stream.sendWindow + inc }

end Stream

structure Session where
  peerSettings : Settings := {}
  connSendWindow : Int := kInitialWindow
  connRecvWindow : Int := kInitialWindow
  lastStreamIdHandled : Nat := 0
  streams : OrdMap Stream := .empty
  deriving DecidableEq

inductive Effect where
  | opened (streamId : Nat)
  | settingsAck
  | pong (payload : Bytes)
  | windowUpdate (streamId increment : Nat)
  | rstStream (streamId errorCode : Nat)
  | handoff (request : Request)
  /-- A connection error, or with code 0 the end of the connection. -/
  | fatal (errorCode : Nat)
  deriving DecidableEq

def Effect.isFatal : Effect → Bool
  | .fatal _ => true
  | _ => false

namespace Session

def rstStream (streamId errorCode : Nat) (s : Session) : Session × List Effect :=
  ({ s with streams := s.streams.erase streamId }, [.rstStream streamId errorCode])

def handoffRequest (streamId : Nat) (stream : Stream) (s : Session) : Session × List Effect :=
  ({ s with lastStreamIdHandled := stream.id, streams := s.streams.erase streamId },
    [.handoff stream.request])

def settle (streamId : Nat) (verdict : Verdict) (s : Session) : Session × List Effect :=
  match verdict with
  | .fatal errorCode => (s, [.fatal errorCode])
  | .reset errorCode => s.rstStream streamId errorCode
  | .keep stream => ({ s with streams := s.streams.insert streamId stream }, [])
  | .finish stream => s.handoffRequest streamId stream

def onSettings (frame : Frame) (s : Session) : Session × List Effect :=
  if frame.streamId ≠ 0 then (s, [.fatal 0x1])
  else if frame.has Flags.ack then (s, if frame.payload ≠ [] then [.fatal 0x6] else [])
  else if frame.payload.length % 6 ≠ 0 then (s, [.fatal 0x6])
  else
    ({ s with peerSettings := s.peerSettings.parseInto frame.payload }, [.settingsAck])

def onPing (frame : Frame) (s : Session) : Session × List Effect :=
  if frame.streamId ≠ 0 then (s, [.fatal 0x1])
  else if frame.payload.length ≠ 8 then (s, [.fatal 0x6])
  else (s, if frame.has Flags.ack then [] else [.pong frame.payload])

def onWindowUpdate (frame : Frame) (s : Session) : Session × List Effect :=
  let inc := frame.windowIncrement
  if frame.payload.length ≠ 4 then (s, [.fatal 0x6])
  else if inc = 0 then
    if frame.streamId = 0 then (s, [.fatal 0x1]) else s.rstStream frame.streamId 0x1
  else if frame.streamId = 0 then
    if s.connSendWindow + inc > kMaxFlowControlWindow then (s, [.fatal 0x3])
    else ({ s with connSendWindow := s.connSendWindow + inc }, [])
  else match s.streams.find? frame.streamId with
    | none => (s, [])
    | some stream => s.settle frame.streamId (stream.onWindowUpdate inc)

def onRstStream (frame : Frame) (s : Session) : Session × List Effect :=
  if frame.streamId = 0 then (s, [.fatal 0x1])
  else if frame.payload.length ≠ 4 then (s, [.fatal 0x6])
  else ({ s with streams := s.streams.erase frame.streamId }, [])

def onHeaders (hpack : Hpack) (frame : Frame) (s : Session) : Session × List Effect :=
  if frame.streamId = 0 then (s, [.fatal 0x1])
  else match s.streams.find? frame.streamId with
    | some stream => s.settle frame.streamId (stream.onHeaders hpack frame)
    | none =>
      if s.streams.entries.length ≥ kMaxConcurrentStreams then s.rstStream frame.streamId 0x7
      else
        let (s, effects) := s.settle frame.streamId (({} : Stream).onHeaders hpack frame)
        (s, .opened frame.streamId :: effects)

def onContinuation (hpack : Hpack) (frame : Frame) (s : Session) : Session × List Effect :=
  match s.streams.find? frame.streamId with
  | none => (s, [.fatal 0x1])
  | some stream => s.settle frame.streamId (stream.onContinuation hpack frame)

/-- The credit for a DATA frame, unless it was refused. -/
def refill (frame : Frame) : Verdict → List Effect
  | .fatal _ | .reset _ => []
  | .keep _ | .finish _ =>
    if frame.payload ≠ [] then
      [.windowUpdate 0 frame.payload.length, .windowUpdate frame.streamId frame.payload.length]
    else []

def onData (frame : Frame) (s : Session) : Session × List Effect :=
  match s.streams.find? frame.streamId with
  | none => (s, [.fatal 0x1])
  | some stream =>
    let verdict := stream.onData frame
    let (s, effects) := s.settle frame.streamId verdict
    (s, refill frame verdict ++ effects)

def handleFrame (hpack : Hpack) (frame : Frame) (s : Session) : Session × List Effect :=
  match frame.type with
  | .settings => s.onSettings frame
  | .ping => s.onPing frame
  | .windowUpdate => s.onWindowUpdate frame
  | .rstStream => s.onRstStream frame
  | .goaway => (s, [.fatal 0x0])
  | .headers => s.onHeaders hpack frame
  | .continuation => s.onContinuation hpack frame
  | .data => s.onData frame
  | .priority | .pushPromise | .other _ => (s, [])

def charge (frame : Frame) (s : Session) : Session :=
  if frame.type = .data then { s with connRecvWindow := s.connRecvWindow - frame.length } else s

end Session

/-! ## What a frame can do -/

/-- What a frame makes of a stream it finds in the table. -/
inductive Stream.Judged (hpack : Hpack) (frame : Frame) (stream : Stream) : Verdict → Prop where
  | headers (htype : frame.type = .headers) : Judged hpack frame stream (stream.onHeaders hpack frame)
  | continuation (htype : frame.type = .continuation) :
    Judged hpack frame stream (stream.onContinuation hpack frame)
  | data (htype : frame.type = .data) : Judged hpack frame stream (stream.onData frame)
  | windowUpdate (htype : frame.type = .windowUpdate) :
    Judged hpack frame stream (stream.onWindowUpdate frame.windowIncrement)

def Frame.isPart (frame : Frame) : Bool := frame.type ∈ [.headers, .continuation, .data]

/-- What the switch does with a frame. -/
inductive Session.Handles (hpack : Hpack) (frame : Frame) (s : Session) :
    Session × List Effect → Prop where
  | apart {s' : Session} {effects : List Effect} (htype : frame.isPart = false)
    (hstreams : s'.streams = s.streams) (hlast : s'.lastStreamIdHandled = s.lastStreamIdHandled)
    (heffects : ∀ e ∈ effects, e = .settingsAck ∨ ∃ payload, e = .pong payload) :
    Handles hpack frame s (s', effects)
  | fatal (errorCode : Nat) : Handles hpack frame s (s, [.fatal errorCode])
  | dropped (htype : frame.isPart = false) :
    Handles hpack frame s ({ s with streams := s.streams.erase frame.streamId }, [])
  | reset (errorCode : Nat)
    (hpart : frame.isPart = true →
      frame.type = .headers ∧ s.streams.find? frame.streamId = none) :
    Handles hpack frame s (s.rstStream frame.streamId errorCode)
  | opens (htype : frame.type = .headers) (hid : frame.streamId ≠ 0)
    (hnew : s.streams.find? frame.streamId = none) :
    Handles hpack frame s
      ((s.settle frame.streamId (({} : Stream).onHeaders hpack frame)).1,
        .opened frame.streamId ::
          (s.settle frame.streamId (({} : Stream).onHeaders hpack frame)).2)
  | reads {stream : Stream} {verdict : Verdict} {credit : List Effect}
    (hlive : s.streams.find? frame.streamId = some stream)
    (hverdict : stream.Judged hpack frame verdict)
    (hcredit : ∀ e ∈ credit, ∃ id increment, e = .windowUpdate id increment) :
    Handles hpack frame s
      ((s.settle frame.streamId verdict).1, credit ++ (s.settle frame.streamId verdict).2)

namespace Session

variable {hpack : Hpack} {frame : Frame} {s : Session}

section
variable (htype : frame.isPart = false)
include htype

theorem Handles.quiet (hstreams : s'.streams = s.streams)
    (hlast : s'.lastStreamIdHandled = s.lastStreamIdHandled) :
    Handles hpack frame s (s', []) :=
  .apart htype hstreams hlast nofun

theorem handles_settings : Handles hpack frame s (s.onSettings frame) := by
  unfold onSettings
  split
  · exact .fatal _
  split
  · split
    · exact .fatal _
    · exact .quiet htype rfl rfl
  · split
    · exact .fatal _
    · refine .apart htype rfl rfl fun e he => ?_
      exact .inl (mem_singleton.mp he)

theorem handles_ping : Handles hpack frame s (s.onPing frame) := by
  unfold onPing
  split
  · exact .fatal _
  split
  · exact .fatal _
  split
  · exact .quiet htype rfl rfl
  · refine .apart htype rfl rfl fun e he => ?_
    exact .inr ⟨_, mem_singleton.mp he⟩

end

theorem handles_windowUpdate (htype : frame.type = .windowUpdate) :
    Handles hpack frame s (s.onWindowUpdate frame) := by
  have hpart : frame.isPart = false := by
    rw [Frame.isPart, htype]
    rfl
  unfold onWindowUpdate
  dsimp only
  split
  · exact .fatal _
  split
  · split
    · exact .fatal _
    · refine .reset _ fun h => ?_
      cases hpart.symm.trans h
  · split
    · split
      · exact .fatal _
      · exact .quiet hpart rfl rfl
    · split
      · exact .quiet hpart rfl rfl
      next stream hlive => exact .reads hlive (.windowUpdate htype) (forall_mem_nil _)

theorem handles_rstStream (htype : frame.isPart = false) :
    Handles hpack frame s (s.onRstStream frame) := by
  unfold onRstStream
  split
  · exact .fatal _
  split
  · exact .fatal _
  · exact .dropped htype

theorem handles_headers (htype : frame.type = .headers) :
    Handles hpack frame s (s.onHeaders hpack frame) := by
  unfold onHeaders
  split
  · exact .fatal _
  next hid =>
    split
    next stream hlive => exact .reads hlive (.headers htype) (forall_mem_nil _)
    next hnew =>
      split
      · exact .reset _ fun _ => ⟨htype, hnew⟩
      · exact .opens htype hid hnew

theorem handles_continuation (htype : frame.type = .continuation) :
    Handles hpack frame s (s.onContinuation hpack frame) := by
  unfold onContinuation
  split
  · exact .fatal _
  next stream hlive => exact .reads hlive (.continuation htype) (forall_mem_nil _)

theorem refill_credit (verdict : Verdict) (h : e ∈ refill frame verdict) :
    ∃ id increment, e = .windowUpdate id increment := by
  unfold refill at h
  split at h
  · cases h
  · cases h
  all_goals
    split at h
    · simp only [mem_cons, not_mem_nil, or_false] at h
      obtain rfl | rfl := h
      all_goals exact ⟨_, _, rfl⟩
    · cases h

theorem handles_data (htype : frame.type = .data) :
    Handles hpack frame s (s.onData frame) := by
  unfold onData
  split
  · exact .fatal _
  next stream hlive => exact .reads hlive (.data htype) fun e he => refill_credit _ he

theorem handles_handleFrame (hpack : Hpack) (frame : Frame) (s : Session) :
    Handles hpack frame s (s.handleFrame hpack frame) := by
  have hpart (type : FrameType) (htype : frame.type = type)
      (h : type ∉ [.headers, .continuation, .data]) : frame.isPart = false := by
    rw [Frame.isPart, htype]
    exact decide_eq_false h
  unfold handleFrame
  split
  next htype => exact handles_settings (hpart _ htype (by decide))
  next htype => exact handles_ping (hpart _ htype (by decide))
  next htype => exact handles_windowUpdate htype
  next htype => exact handles_rstStream (hpart _ htype (by decide))
  next htype => exact .fatal _
  next htype => exact handles_headers htype
  next htype => exact handles_continuation htype
  next htype => exact handles_data htype
  next htype => exact .quiet (hpart _ htype (by decide)) rfl rfl
  next htype => exact .quiet (hpart _ htype (by decide)) rfl rfl
  next htype => exact .quiet (hpart _ htype (by simp)) rfl rfl

end Session

/-! ## The table of streams -/

def Verdict.stream? : Verdict → Option Stream
  | .keep stream | .finish stream => some stream
  | .fatal _ | .reset _ => none

structure Stream.Bounded (stream : Stream) : Prop where
  pendingHpack : stream.pendingHpack.length ≤ kMaxHeaderListBytes
  body : stream.body.length ≤ kMaxBodyBytes
  sendWindow : stream.sendWindow ≤ kMaxFlowControlWindow

theorem Frame.length_headerFragment {frame : Frame} (h : frame.headerFragment = some fragment) :
    fragment.length ≤ frame.payload.length := by
  obtain ⟨content, hcontent, hfragment⟩ := Option.bind_eq_some_iff.mp h
  have hle : content.length ≤ frame.payload.length := by
    unfold unpadded at hcontent
    split at hcontent
    next padLen rest hpayload =>
      rw [hpayload]
      split_ifs at hcontent
      · cases hcontent
        exact (length_take_le' ..).trans (Nat.le_succ _)
      · cases hcontent
        rw [hpayload]
    · cases hcontent
      exact Nat.zero_le _
  split_ifs at hfragment
  · cases hfragment
    exact (drop_sublist ..).length_le.trans hle
  · cases hfragment
    exact hle

variable {stream : Stream}

theorem Stream.kept_onHeaders (h : (stream.onHeaders hpack frame).stream? = some stream') :
    stream'.id = frame.streamId ∧
      (frame.payload.length ≤ kMaxHeaderListBytes → stream.Bounded → stream'.Bounded) := by
  unfold onHeaders at h
  split at h
  · cases h
  next fragment hfragment =>
    dsimp only at h
    split at h
    · split at h
      all_goals
        cases h
        exact ⟨rfl, fun _ hs => ⟨Nat.zero_le _, hs.body, hs.sendWindow⟩⟩
    · cases h
      exact ⟨rfl, fun hle hs =>
        ⟨(Frame.length_headerFragment hfragment).trans hle, hs.body, hs.sendWindow⟩⟩

theorem Stream.kept_onContinuation
    (h : (stream.onContinuation hpack frame).stream? = some stream') :
    stream'.id = stream.id ∧ (stream.Bounded → stream'.Bounded) := by
  unfold onContinuation at h
  split at h
  · cases h
  split at h
  · cases h
  next hroom =>
    dsimp only at h
    split at h
    · split at h
      all_goals
        cases h
        exact ⟨rfl, fun hs => ⟨Nat.zero_le _, hs.body, hs.sendWindow⟩⟩
    · cases h
      exact ⟨rfl, fun hs => ⟨length_append.trans_le (Nat.not_lt.mp hroom), hs.body, hs.sendWindow⟩⟩

theorem Stream.kept_onData (h : (stream.onData frame).stream? = some stream') :
    stream'.id = stream.id ∧ (stream.Bounded → stream'.Bounded) := by
  unfold onData at h
  split at h
  · cases h
  split at h
  · cases h
  split at h
  · cases h
  next hroom =>
    dsimp only at h
    split at h
    all_goals
      cases h
      exact ⟨rfl, fun hs =>
        ⟨hs.pendingHpack, length_append.trans_le (Nat.not_lt.mp hroom), hs.sendWindow⟩⟩

theorem Stream.kept_onWindowUpdate (h : (stream.onWindowUpdate inc).stream? = some stream') :
    stream'.id = stream.id ∧ (stream.Bounded → stream'.Bounded) := by
  unfold onWindowUpdate at h
  split at h
  · cases h
  next hroom =>
    cases h
    exact ⟨rfl, fun hs => ⟨hs.pendingHpack, hs.body, Int.not_lt.mp hroom⟩⟩

theorem Stream.Judged.kept (h : stream.Judged hpack frame verdict)
    (hstream : verdict.stream? = some stream') :
    (stream.id = frame.streamId → stream'.id = frame.streamId) ∧
      (frame.payload.length ≤ kMaxHeaderListBytes → stream.Bounded → stream'.Bounded) := by
  cases h with
  | headers => exact ⟨fun _ => (kept_onHeaders hstream).1, (kept_onHeaders hstream).2⟩
  | continuation => exact (kept_onContinuation hstream).imp (·.trans) fun h _ => h
  | data => exact (kept_onData hstream).imp (·.trans) fun h _ => h
  | windowUpdate => exact (kept_onWindowUpdate hstream).imp (·.trans) fun h _ => h

/-- Every stream is entered under its id. -/
def Session.Keyed (s : Session) : Prop :=
  ∀ streamId stream, s.streams.find? streamId = some stream → stream.id = streamId

namespace Session

theorem find?_settle_of_ne (s : Session) (verdict : Verdict) {id streamId : Nat}
    (h : id ≠ streamId) :
    (s.settle streamId verdict).1.streams.find? id = s.streams.find? id := by
  cases verdict with
  | fatal => rfl
  | reset => exact (OrdMap.find?_erase _ _ _).trans (if_neg h)
  | keep => exact (OrdMap.find?_insert _ _ _ _).trans (if_neg h)
  | finish => exact (OrdMap.find?_erase _ _ _).trans (if_neg h)

theorem find?_settle_reset (s : Session) (streamId errorCode : Nat) :
    (s.settle streamId (.reset errorCode)).1.streams.find? streamId = none :=
  (OrdMap.find?_erase _ _ _).trans (if_pos rfl)

section
variable (s : Session) (streamId : Nat) (stream : Stream)

theorem find?_settle_keep :
    (s.settle streamId (.keep stream)).1.streams.find? streamId = some stream :=
  (OrdMap.find?_insert _ _ _ _).trans (if_pos rfl)

theorem find?_settle_finish :
    (s.settle streamId (.finish stream)).1.streams.find? streamId = none :=
  (OrdMap.find?_erase _ _ _).trans (if_pos rfl)

end

/-- Who is in the table then was there before, or is kept by the verdict. -/
theorem find?_settle {s : Session} {id : Nat}
    (h : (s.settle streamId verdict).1.streams.find? id = some stream) :
    s.streams.find? id = some stream ∨ id = streamId ∧ verdict = .keep stream := by
  by_cases hid : id = streamId
  · subst hid
    cases verdict with
    | fatal => exact .inl h
    | reset => cases (find?_settle_reset s id _).symm.trans h
    | keep =>
      rw [find?_settle_keep, Option.some.injEq] at h
      exact .inr ⟨rfl, congrArg Verdict.keep h⟩
    | finish => cases (find?_settle_finish s id _).symm.trans h
  · rw [find?_settle_of_ne s verdict hid] at h
    exact .inl h

theorem keyed_settle {s : Session} (hs : s.Keyed)
    (h : ∀ stream, verdict.stream? = some stream → stream.id = streamId) :
    (s.settle streamId verdict).1.Keyed := by
  intro id stream hfind
  obtain hold | ⟨rfl, rfl⟩ := find?_settle hfind
  · exact hs id stream hold
  · exact h stream rfl

theorem streams_charge (frame : Frame) (s : Session) : (s.charge frame).streams = s.streams := by
  unfold charge
  split
  · rfl
  · rfl

end Session

/-! ## Runs of frames -/

structure Handled where
  frame : Frame
  effects : List Effect
  deriving DecidableEq

structure Transcript where
  session : Session := {}
  history : List Handled := []
  deriving DecidableEq

namespace Transcript

def effectsOf (hpack : Hpack) (frame : Frame) (t : Transcript) : List Effect :=
  ((t.session.charge frame).handleFrame hpack frame).2

def receive (hpack : Hpack) (t : Transcript) (frame : Frame) : Transcript :=
  { session := ((t.session.charge frame).handleFrame hpack frame).1
    history := t.history ++ [⟨frame, t.effectsOf hpack frame⟩] }

def frames (t : Transcript) : List Frame := t.history.map Handled.frame

def effects (t : Transcript) : List Effect := t.history.flatMap Handled.effects

def ended (t : Transcript) : Bool := t.effects.any Effect.isFatal

def ofFrames (hpack : Hpack) (frames : List Frame) : Transcript :=
  Machine.run (receive hpack) {} frames

variable {hpack : Hpack}

section
variable (t : Transcript) (frame : Frame)

theorem frames_receive : (t.receive hpack frame).frames = t.frames ++ [frame] := map_append

theorem effects_receive :
    (t.receive hpack frame).effects = t.effects ++ t.effectsOf hpack frame := by
  unfold effects receive
  rw [flatMap_append, flatMap_singleton]

theorem ended_receive : (t.receive hpack frame).ended =
      (t.ended || (t.effectsOf hpack frame).any Effect.isFatal) := by
  unfold ended
  rw [effects_receive, any_append]

end

end Transcript

def handoffs (effects : List Effect) : List Request :=
  effects.filterMap fun | .handoff request => some request | _ => none

theorem handoffs_append (effects effects' : List Effect) :
    handoffs (effects ++ effects') = handoffs effects ++ handoffs effects' :=
  filterMap_append

theorem handoffs_cons_of_ne (h : ∀ request, effect ≠ .handoff request) (effects : List Effect) :
    handoffs (effect :: effects) = handoffs effects := by
  cases effect with
  | handoff request => exact absurd rfl (h request)
  | _ => rfl

end Spaznet.Http2
