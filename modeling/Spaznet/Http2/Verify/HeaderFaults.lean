import Spaznet.Http2.Hpack
import Spaznet.Http2.Verify.StreamIdentity

/-!
# Header blocks with faults

A header block need not be readable to its end. The decoder keeps the fields in front of the first
representation that it cannot read, drops those that name no entry of the static table, and the
request is dispatched with the fields that are left.
-/

namespace Spaznet.Http2

open List
open Http (Bytes Headers ascii)
open HPACK (Representation decodeRepresentation store)

namespace HPACK

/-- The block starts with these representations, and `rest` is behind them. -/
inductive Starts : Bytes → List Representation → Bytes → Prop where
  | nil (rest : Bytes) : Starts rest [] rest
  | cons (hpart : decodeRepresentation block = some (part, block'))
    (hparts : Starts block' parts rest) : Starts block (part :: parts) rest

/-- The block is at its end, or its next representation cannot be read. -/
def Stops (rest : Bytes) : Prop := decodeRepresentation rest = none

def fields (parts : List Representation) : Headers := store [] (parts.filterMap (·.field?))

theorem starts_items (block : Bytes) : Starts block (intake.items block) (intake.rest block) := by
  induction block using intake.induction with
  | none block h =>
    rw [Intake.items_of_none h, Intake.rest_of_none h]
    exact .nil block
  | some block part block' h ih =>
    rw [Intake.items_of_some h, Intake.rest_of_some h]
    exact .cons h ih

theorem stops_rest (block : Bytes) : Stops (intake.rest block) := intake.next?_rest block

/-- The headers of a block are the fields in front of the first fault. -/
theorem decodeHeaders_spec (block : Bytes) : ∃ parts rest, Starts block parts rest ∧ Stops rest ∧
    codec.decodeHeaders block = fields parts :=
  ⟨_, _, starts_items block, stops_rest block, decodeHeaders_eq block⟩

end HPACK

open HPACK

/-! ## Blocks on a connection -/

namespace Session

/-- The header block that a frame ends, if the frame is not refused. -/
def block? (frame : Frame) (s : Session) : Option Bytes :=
  if !frame.has Flags.endHeaders then none
  else match frame.type, s.streams.find? frame.streamId with
    | .headers, none =>
      if frame.streamId = 0 ∨ s.streams.entries.length ≥ kMaxConcurrentStreams then none
      else frame.headerFragment
    | .headers, some _ => if frame.streamId = 0 then none else frame.headerFragment
    | .continuation, some stream =>
      if stream.headersReceived ∧
          stream.pendingHpack.length + frame.payload.length ≤ kMaxHeaderListBytes then
        some (stream.pendingHpack ++ frame.payload)
      else none
    | _, _ => none

def endsRequest (frame : Frame) (s : Session) : Bool :=
  match frame.type with
  | .headers => frame.has Flags.endStream
  | _ => (s.streams.find? frame.streamId).any (·.endStreamReceived)

/-- The request that is handed off, or the stream that waits for its body, has these headers. -/
def Bears (frame : Frame) (ended : Bool) (headers : Headers) (out : Session × List Effect) : Prop :=
  if ended then ∃ request, .handoff request ∈ out.2 ∧ request.streamId = frame.streamId ∧
    request.headers = headers
  else ∃ stream, out.1.streams.find? frame.streamId = some stream ∧ stream.headers = headers

variable {frame : Frame} {s : Session} {block : Bytes}

theorem bears_settle (stream : Stream) (hid : stream.id = frame.streamId) (ended : Bool) :
    Bears frame ended stream.headers
      (s.settle frame.streamId (if ended then .finish stream else .keep stream)) := by
  cases ended with
  | true =>
    exact ⟨stream.request, mem_singleton_self _, hid, rfl⟩
  | false =>
    exact ⟨stream, find?_settle_keep .., rfl⟩

theorem bears_onHeaders (hpack : Hpack) {stream : Stream}
    (hends : frame.has Flags.endHeaders = true) (hblock : frame.headerFragment = some block) :
    Bears frame (frame.has Flags.endStream) (hpack.decodeHeaders block)
      (s.settle frame.streamId (stream.onHeaders hpack frame)) := by
  unfold Stream.onHeaders
  rw [hblock]
  dsimp only
  rw [if_pos hends]
  exact bears_settle (Stream.decode hpack { stream with
    id := frame.streamId
    headersReceived := true
    pendingHpack := block
    endStreamReceived := stream.endStreamReceived || frame.has Flags.endStream }) rfl _

theorem bears_onContinuation (hpack : Hpack) {stream : Stream} (hid : stream.id = frame.streamId)
    (hends : frame.has Flags.endHeaders = true) (hreceived : stream.headersReceived = true)
    (hroom : stream.pendingHpack.length + frame.payload.length ≤ kMaxHeaderListBytes) :
    Bears frame stream.endStreamReceived
      (hpack.decodeHeaders (stream.pendingHpack ++ frame.payload))
      (s.settle frame.streamId (stream.onContinuation hpack frame)) := by
  have hgoes : ¬ (!stream.headersReceived) = true := by
    rw [hreceived]
    decide
  unfold Stream.onContinuation
  rw [if_neg hgoes, if_neg (Nat.not_lt.mpr hroom)]
  rw [if_pos hends]
  exact bears_settle (Stream.decode hpack { stream with
    pendingHpack := stream.pendingHpack ++ frame.payload }) hid _

theorem Bears.opened (h : Bears frame ended headers out) (effect : Effect) :
    Bears frame ended headers (out.1, effect :: out.2) := by
  cases ended with
  | true =>
    obtain ⟨request, hmem, hrequest⟩ := h
    exact ⟨request, mem_cons_of_mem _ hmem, hrequest⟩
  | false => exact h

theorem bears_handleFrame (hpack : Hpack) (hs : s.Keyed) (h : s.block? frame = some block) :
    Bears frame (s.endsRequest frame) (hpack.decodeHeaders block) (s.handleFrame hpack frame) := by
  unfold block? at h
  split at h
  · cases h
  next hends =>
    have hends : frame.has Flags.endHeaders = true := by simpa using hends
    unfold endsRequest handleFrame
    split at h
    next htype hnew =>
      split at h
      · cases h
      next hroom =>
        rw [htype]
        dsimp only [onHeaders]
        rw [if_neg fun hid => hroom (.inl hid), hnew]
        rw [if_neg fun hfull => hroom (.inr hfull)]
        exact (bears_onHeaders hpack hends h).opened _
    next stream htype hlive =>
      split at h
      · cases h
      next hid =>
        rw [htype]
        dsimp only [onHeaders]
        rw [if_neg hid, hlive]
        exact bears_onHeaders hpack hends h
    next stream htype hlive =>
      split at h
      next hfits =>
        cases h
        rw [htype]
        dsimp only [onContinuation]
        rw [hlive]
        exact bears_onContinuation hpack (hs _ _ hlive) hends hfits.1 hfits.2
      · cases h
    · cases h

theorem headers_onData {stream : Stream} (hlive : s.streams.find? frame.streamId = some stream)
    (h : .handoff request ∈ (s.onData frame).2) : request.headers = stream.headers := by
  unfold onData at h
  rw [hlive] at h
  obtain hcredit | hsettled := mem_append.mp h
  · obtain ⟨_, _, heq⟩ := refill_credit _ hcredit
    cases heq
  unfold Stream.onData at hsettled
  split at hsettled
  · cases mem_singleton.mp hsettled
  split at hsettled
  · cases mem_singleton.mp hsettled
  dsimp only at hsettled
  split at hsettled
  · cases mem_singleton.mp hsettled
  split at hsettled
  · cases mem_singleton.mp hsettled
    rfl
  · cases hsettled

end Session

structure Lenient (t : Transcript) (frame : Frame) : Prop where
  /-- A block that has ended counts as far as it can be read: the request is handed off with the
  fields that were found, or waits with them for its body. -/
  ended : ∀ block, t.session.block? frame = some block →
    ∃ parts rest, Starts block parts rest ∧ Stops rest ∧
      Session.Bears frame (t.session.endsRequest frame) (fields parts)
        ((t.receive codec frame).session, t.effectsOf codec frame)
  /-- The body that ends a request does not change the fields. -/
  kept : frame.type = .data → ∀ stream, t.session.streams.find? frame.streamId = some stream →
    ∀ request, .handoff request ∈ t.effectsOf codec frame → request.headers = stream.headers

theorem Session.charge_of_block? {s : Session} (h : s.block? frame = some block) :
    s.charge frame = s := by
  refine if_neg fun htype => ?_
  unfold block? at h
  rw [htype] at h
  split at h
  · cases h
  · cases h

theorem lenient_receive (ht : t.session.Keyed) (frame : Frame) : Lenient t frame := by
  refine ⟨fun block hblock => ?_, fun htype stream hlive request hmem => ?_⟩
  · obtain ⟨parts, rest, hstarts, hstops, hfields⟩ := decodeHeaders_spec block
    refine ⟨parts, rest, hstarts, hstops, ?_⟩
    have hbears := Session.bears_handleFrame codec ht hblock
    rw [hfields] at hbears
    unfold Transcript.receive Transcript.effectsOf
    rw [Session.charge_of_block? hblock]
    exact hbears
  · unfold Transcript.effectsOf Session.handleFrame at hmem
    rw [htype] at hmem
    have hlive' : (t.session.charge frame).streams.find? frame.streamId = some stream := by
      rw [Session.streams_charge]
      exact hlive
    exact Session.headers_onData hlive' hmem

/-- **Header blocks with faults.** A header block that ends is decoded up to the first
representation that cannot be read; the request is dispatched with the fields found so far. -/
theorem faulty_blocks_dispatched (env : Env) (e : Exchange)
    (hrun : e.Dispatched { env with hpack := codec }) :
    Machine.AllSteps (Transcript.receive codec) Lenient {} e.transcript.frames ∧
      e.requests = handoffs e.transcript.effects := by
  have hfollows := Exchange.Follows.moves hrun.moves
  refine ⟨?_, hfollows.dispatched⟩
  refine Machine.AllSteps.of_invariant (I := Transcript.Accounted) ?_ ?_
    ⟨nofun, fun _ => Nat.le_refl 0⟩ (Machine.allSteps_of_forall (fun _ _ => trivial) _ _)
  · exact fun t frame h _ => accounted_receive t frame h
  · exact fun t frame h _ => lenient_receive h.keyed frame

/-- A request whose header block is `block`, as a dispatcher meets it. -/
def sentBlock (block : Bytes) : Exchange :=
  (Http2Connection.run { Env.answering {} with hpack := codec } {}
    [.client [{ headersFrame 1 0x5 with length := block.length, payload := block }]]).exchange

theorem faulty_blocks_dispatched_truncated :
    Machine.AllSteps (Transcript.receive codec) Lenient {}
        (sentBlock [0x82, 0x41]).transcript.frames ∧
      (sentBlock [0x82, 0x41]).requests = handoffs (sentBlock [0x82, 0x41]).transcript.effects :=
  faulty_blocks_dispatched (.answering {}) _ (.reactor _ _)

/-- Four blocks with the field `:method: GET` and a fault behind it: a literal without its value, an
index outside the table, an integer of more than five bytes, and a text that is not under the
Huffman code. Each is dispatched. -/
theorem malformed_blocks_dispatch :
    [[0x82, 0x41], [0x82, 0xbe], [0x82, 0xff, 0x80, 0x80, 0x80, 0x80, 0x80],
        [0x82, 0x41, 0x82, 0xff, 0xff]].map (fun block =>
      (sentBlock block).requests.map fun request => (request.method, request.headers)) =
        replicate 4 [(ascii "GET", [(ascii ":method", ascii "GET")])] := by
  decide +kernel

end Spaznet.Http2
