import Spaznet.Http2.Actions

/-!
# How requests are put together

A request is a header block, a HEADERS frame and the CONTINUATION frames right behind it, and the
DATA frames of its stream. The switch keeps no note of an open header block: it takes other frames
in between, a CONTINUATION frame after the end of the block, and the end of a stream whose headers
have not ended; and a second block on a stream replaces the first. From a client that does none of
this every request arrives as it was sent.
-/

namespace Spaznet.Http2

open List Frame Flags Session
open Http (Bytes)

/-! ## Header blocks -/

/-- Frames that are a header block of a stream, with the bytes of the block. The flags say whether
it is complete and whether the stream ends with it. -/
inductive HeaderBlock (id : Nat) : List Frame → Bytes → (complete ends : Bool) → Prop where
  | headers {frame : Frame} {fragment : Bytes} (htype : frame.type = .headers)
    (hid : frame.streamId = id) (hfragment : frame.headerFragment = some fragment) :
    HeaderBlock id [frame] fragment (frame.has endHeaders) (frame.has endStream)
  | continuation {frame : Frame} {block : List Frame} {bytes : Bytes} {ends : Bool}
    (h : HeaderBlock id block bytes false ends) (htype : frame.type = .continuation)
    (hid : frame.streamId = id) :
    HeaderBlock id (block ++ [frame]) (bytes ++ frame.payload) (frame.has endHeaders) ends

/-- The stream whose header block is open after a frame. -/
def openAfter (block : Option Nat) (frame : Frame) : Option Nat :=
  match frame.type with
  | .headers => if frame.has endHeaders then none else some frame.streamId
  | .continuation => if frame.has endHeaders then none else block
  | _ => block

def openBlock (frames : List Frame) : Option Nat := frames.foldl openAfter none

/-- The frame goes on with the header block that is open, or none is open and it does not. -/
def Contiguous (frames : List Frame) (frame : Frame) : Prop :=
  match openBlock frames with
  | some id => frame.type = .continuation ∧ frame.streamId = id
  | none => frame.type ≠ .continuation

/-- What a frame adds to the body of a stream. -/
def Frame.dataOn (id : Nat) (frame : Frame) : Bytes :=
  if frame.type = .data ∧ frame.streamId = id then frame.unpadded.getD [] else []

def Frame.headsOn (id : Nat) (frame : Frame) : Bool :=
  (frame.type = .headers || frame.type = .continuation) && frame.streamId = id

/-- The last of these frames completes a request: behind its header block come the DATA frames of
the stream and no other header block, and the stream has ended. -/
inductive Assembled (hpack : Hpack) (frames : List Frame) (request : Request) : Prop where
  | intro (before block rest : List Frame) (bytes : Bytes) (ends : Bool)
    (hframes : frames = before ++ block ++ rest)
    (hblock : HeaderBlock request.streamId block bytes true ends)
    (hheaders : request.headers = hpack.decodeHeaders bytes)
    (hbody : request.body = rest.flatMap (dataOn request.streamId))
    (hrest : ∀ frame ∈ rest, frame.headsOn request.streamId = false)
    (hends : ends = true ∧ rest = [] ∨
      ∃ data last, rest = data ++ [last] ∧ last.type = .data ∧
        last.streamId = request.streamId ∧ last.has endStream = true)

def ConnectionError (hpack : Hpack) (t : Transcript) (frame : Frame) : Prop :=
  ∃ errorCode, errorCode ≠ 0 ∧ .fatal errorCode ∈ t.effectsOf hpack frame

structure Promised (hpack : Hpack) (t : Transcript) (frame : Frame) : Prop where
  assembled : ∀ request, .handoff request ∈ t.effectsOf hpack frame →
    Assembled hpack (t.frames ++ [frame]) request
  contiguous : Contiguous t.frames frame ∨ ConnectionError hpack t frame

/-! ## Frames that are refused -/

/-- The checks that lead to a connection error, whatever is open. -/
def Rejected (s : Session) (frame : Frame) : Prop :=
  match frame.type with
  | .settings => frame.streamId ≠ 0 ∨
      (if frame.has ack then frame.payload ≠ [] else frame.payload.length % 6 ≠ 0)
  | .ping => frame.streamId ≠ 0 ∨ frame.payload.length ≠ 8
  | .windowUpdate => frame.payload.length ≠ 4 ∨ frame.streamId = 0 ∧
      (frame.windowIncrement = 0 ∨ s.connSendWindow + frame.windowIncrement > kMaxFlowControlWindow)
  | .rstStream => frame.streamId = 0 ∨ frame.payload.length ≠ 4
  | .headers => frame.streamId = 0
  | .continuation => ∀ stream, s.streams.find? frame.streamId = some stream →
      stream.pendingHpack.length + frame.payload.length > kMaxHeaderListBytes
  | .data => s.streams.find? frame.streamId = none
  | _ => False

/-- The client keeps to the rules for header blocks, or is refused, and opens no stream twice. -/
structure Orderly (t : Transcript) (frame : Frame) : Prop where
  contiguous : Contiguous t.frames frame ∨ Rejected t.session frame
  single : frame.type = .headers → t.session.streams.find? frame.streamId = none

namespace Session

variable {s : Session}

def Fatal (result : Session × List Effect) : Prop :=
  ∃ errorCode, errorCode ≠ 0 ∧ result.2 = [.fatal errorCode]

theorem fatal_onSettings (h : frame.streamId ≠ 0 ∨
    (if frame.has ack then frame.payload ≠ [] else frame.payload.length % 6 ≠ 0)) :
    Fatal (s.onSettings frame) := by
  unfold onSettings
  split
  · exact ⟨0x1, by decide, rfl⟩
  next hid =>
    replace h := h.resolve_left hid
    split
    next hack =>
      rw [if_pos hack] at h
      exact ⟨0x6, by decide, if_pos h⟩
    next hack =>
      rw [if_neg hack] at h
      rw [if_pos h]
      exact ⟨0x6, by decide, rfl⟩

theorem fatal_onPing (h : frame.streamId ≠ 0 ∨ frame.payload.length ≠ 8) :
    Fatal (s.onPing frame) := by
  unfold onPing
  split
  · exact ⟨0x1, by decide, rfl⟩
  next hid =>
    rw [if_pos (h.resolve_left hid)]
    exact ⟨0x6, by decide, rfl⟩

theorem fatal_onWindowUpdate (h : frame.payload.length ≠ 4 ∨ frame.streamId = 0 ∧
    (frame.windowIncrement = 0 ∨ s.connSendWindow + frame.windowIncrement > kMaxFlowControlWindow)) :
    Fatal (s.onWindowUpdate frame) := by
  unfold onWindowUpdate
  dsimp only
  split
  · exact ⟨0x6, by decide, rfl⟩
  next hlength =>
    obtain ⟨hid, h⟩ := h.resolve_left hlength
    split
    · exact ⟨0x1, by decide, rfl⟩
    next hinc =>
      rw [if_pos (h.resolve_left hinc)]
      exact ⟨0x3, by decide, rfl⟩

theorem fatal_onRstStream (h : frame.streamId = 0 ∨ frame.payload.length ≠ 4) :
    Fatal (s.onRstStream frame) := by
  unfold onRstStream
  split
  · exact ⟨0x1, by decide, rfl⟩
  next hid =>
    rw [if_pos (h.resolve_left hid)]
    exact ⟨0x6, by decide, rfl⟩

theorem fatal_onHeaders (hpack : Hpack) (h : frame.streamId = 0) :
    Fatal (s.onHeaders hpack frame) := by
  unfold onHeaders
  rw [if_pos h]
  exact ⟨0x1, by decide, rfl⟩

theorem fatal_onContinuation (hpack : Hpack)
    (h : ∀ stream, s.streams.find? frame.streamId = some stream →
      stream.pendingHpack.length + frame.payload.length > kMaxHeaderListBytes) :
    Fatal (s.onContinuation hpack frame) := by
  unfold onContinuation
  split
  · exact ⟨0x1, by decide, rfl⟩
  next stream hlive =>
    unfold Stream.onContinuation
    split
    · exact ⟨0x1, by decide, rfl⟩
    · rw [if_pos (h stream hlive)]
      exact ⟨0xb, by decide, rfl⟩

theorem fatal_onData (h : s.streams.find? frame.streamId = none) : Fatal (s.onData frame) := by
  unfold onData
  rw [h]
  exact ⟨0x1, by decide, rfl⟩

theorem charge_of_ne (h : frame.type ≠ .data) : s.charge frame = s := if_neg h

theorem fatal_handleFrame (hpack : Hpack) (h : Rejected s frame) :
    Fatal ((s.charge frame).handleFrame hpack frame) := by
  unfold Rejected at h
  split at h
  next htype =>
    rw [handleFrame, htype]
    exact fatal_onSettings h
  next htype =>
    rw [handleFrame, htype]
    exact fatal_onPing h
  next htype =>
    rw [charge_of_ne (by rw [htype]; nofun), handleFrame, htype]
    exact fatal_onWindowUpdate h
  next htype =>
    rw [handleFrame, htype]
    exact fatal_onRstStream h
  next htype =>
    rw [handleFrame, htype]
    exact fatal_onHeaders hpack h
  next htype =>
    rw [charge_of_ne (by rw [htype]; nofun), handleFrame, htype]
    exact fatal_onContinuation hpack h
  next htype =>
    rw [handleFrame, htype]
    exact fatal_onData (by rwa [streams_charge])
  · exact h.elim

end Session

theorem connectionError_of_rejected (hpack : Hpack) (h : Rejected t.session frame) :
    ConnectionError hpack t frame := by
  obtain ⟨errorCode, hcode, heffects⟩ := fatal_handleFrame hpack h
  exact ⟨errorCode, hcode, by rw [Transcript.effectsOf, heffects]; exact mem_singleton_self _⟩

/-! ## What the table knows -/

/-- What the frames so far make of a stream: its header block is open, or complete and followed by
DATA frames. -/
inductive Gathered (hpack : Hpack) (frames : List Frame) (stream : Stream) : Prop where
  | opening (before block : List Frame) (hframes : frames = before ++ block)
    (hblock : HeaderBlock stream.id block stream.pendingHpack false stream.endStreamReceived)
    (hbody : stream.body = []) (hopen : openBlock frames = some stream.id)
  | reading (before block rest : List Frame) (bytes : Bytes)
    (hframes : frames = before ++ block ++ rest)
    (hblock : HeaderBlock stream.id block bytes true false)
    (hheaders : stream.headers = hpack.decodeHeaders bytes)
    (hbody : stream.body = rest.flatMap (dataOn stream.id))
    (hrest : ∀ frame ∈ rest, frame.headsOn stream.id = false)
    (hopen : openBlock frames ≠ some stream.id)

/-- As long as the connection goes on, the table holds what the frames make of each stream. -/
structure Tracks (hpack : Hpack) (t : Transcript) : Prop where
  keyed : t.session.Keyed
  received : ∀ id stream, t.session.streams.find? id = some stream → stream.headersReceived = true
  gathered : ∀ id stream, t.session.streams.find? id = some stream →
    Gathered hpack t.frames stream

theorem openBlock_append (frames : List Frame) (frame : Frame) :
    openBlock (frames ++ [frame]) = openAfter (openBlock frames) frame :=
  foldl_concat _ _ _ _

theorem openAfter_ne {id : Nat} (hblock : block ≠ some id) (hid : frame.streamId ≠ id) :
    openAfter block frame ≠ some id := by
  unfold openAfter
  split
  · split
    · nofun
    · rwa [ne_eq, Option.some.injEq]
  · split
    · nofun
    · exact hblock
  · exact hblock

namespace Gathered

variable {hpack : Hpack} {frames : List Frame} {stream : Stream} {frame : Frame}

theorem reading_snoc (h : Gathered hpack frames stream) (hopen : openBlock frames ≠ some stream.id)
    (hid : stream'.id = stream.id) (hheaders : stream'.headers = stream.headers)
    (hbody : stream'.body = stream.body ++ frame.dataOn stream.id)
    (hheads : frame.headsOn stream.id = false)
    (hopen' : openBlock (frames ++ [frame]) ≠ some stream.id) :
    Gathered hpack (frames ++ [frame]) stream' := by
  cases h with
  | opening _ _ _ _ _ hopen₀ => exact absurd hopen₀ hopen
  | reading before block rest bytes hframes hblock hheaders₀ hbody₀ hrest _ =>
    refine .reading before block (rest ++ [frame]) bytes ?_ ?_ ?_ ?_ ?_ ?_
    · rw [hframes, append_assoc]
    · rwa [hid]
    · rw [hheaders, hheaders₀]
    · rw [hid, hbody, hbody₀, flatMap_append, flatMap_singleton]
    · rw [hid]
      exact forall_mem_append.mpr ⟨hrest, forall_mem_singleton.mpr hheads⟩
    · rwa [hid]

/-- A frame that is not part of the stream's request. -/
theorem aside (h : Gathered hpack frames stream) (hcontiguous : Contiguous frames frame)
    (haside : frame.isPart = false ∨ frame.streamId ≠ stream.id)
    (hid : stream'.id = stream.id) (hheaders : stream'.headers = stream.headers)
    (hbody : stream'.body = stream.body) : Gathered hpack (frames ++ [frame]) stream' := by
  have hopen : openBlock frames ≠ some stream.id := by
    intro hopen
    unfold Contiguous at hcontiguous
    rw [hopen] at hcontiguous
    obtain ⟨htype, hsame⟩ := hcontiguous
    obtain hpart | hne := haside
    · rw [isPart, htype] at hpart
      cases hpart
    · exact hne hsame
  have htype : frame.streamId = stream.id →
      frame.type ≠ .headers ∧ frame.type ≠ .continuation ∧ frame.type ≠ .data := by
    intro hsame
    have hpart := haside.resolve_right fun hne => hne hsame
    rw [isPart] at hpart
    simpa using hpart
  refine h.reading_snoc hopen hid hheaders ?_ ?_ ?_
  · have hdata : frame.dataOn stream.id = [] := if_neg fun h => (htype h.2).2.2 h.1
    rw [hdata, append_nil, hbody]
  · unfold headsOn
    rw [Bool.and_eq_false_iff, Bool.or_eq_false_iff, decide_eq_false_iff_not,
      decide_eq_false_iff_not, decide_eq_false_iff_not]
    by_cases hsame : frame.streamId = stream.id
    · exact .inl ⟨(htype hsame).1, (htype hsame).2.1⟩
    · exact .inr hsame
  · rw [openBlock_append]
    by_cases hsame : frame.streamId = stream.id
    · unfold openAfter
      split
      next h => exact absurd h (htype hsame).1
      next h => exact absurd h (htype hsame).2.1
      · exact hopen
    · exact openAfter_ne hopen hsame

end Gathered

/-! ## One frame -/

/-- What becomes of a stream is what the frames make of it. -/
inductive Yields (hpack : Hpack) (frames : List Frame) : Verdict → Prop where
  | fatal (errorCode : Nat) : Yields hpack frames (.fatal errorCode)
  | reset (errorCode : Nat) : Yields hpack frames (.reset errorCode)
  | keep {stream : Stream} (hreceived : stream.headersReceived = true)
    (h : Gathered hpack frames stream) : Yields hpack frames (.keep stream)
  | finish {stream : Stream} (h : Assembled hpack frames stream.request) :
    Yields hpack frames (.finish stream)

section Frames

variable {hpack : Hpack} {frames : List Frame} {stream : Stream} {frame : Frame}

theorem yields_block (hframes : frames = before ++ block)
    (hblock : HeaderBlock stream.id block stream.pendingHpack complete stream.endStreamReceived)
    (hreceived : stream.headersReceived = true) (hbody : stream.body = [])
    (hopen : openBlock frames = if complete then none else some stream.id) :
    Yields hpack frames (if complete then
      if stream.endStreamReceived then .finish (stream.decode hpack) else .keep (stream.decode hpack)
      else .keep stream) := by
  have hframes' : frames = before ++ block ++ [] := by rw [hframes, append_nil]
  cases complete with
  | false => exact .keep hreceived (.opening before block hframes hblock hbody hopen)
  | true =>
    cases hends : stream.endStreamReceived with
    | true =>
      rw [hends] at hblock
      exact .finish (.intro before block [] _ true hframes' hblock rfl hbody (forall_mem_nil _)
        (.inl ⟨rfl, rfl⟩))
    | false =>
      rw [hends] at hblock
      exact .keep hreceived (.reading before block [] _ hframes' hblock rfl hbody
        (forall_mem_nil _) (hopen ▸ nofun))

theorem yields_onHeaders (hpack : Hpack) (frames : List Frame) (htype : frame.type = .headers) :
    Yields hpack (frames ++ [frame]) (({} : Stream).onHeaders hpack frame) := by
  unfold Stream.onHeaders
  split
  · exact .reset _
  next fragment hfragment =>
    refine yields_block rfl (.headers htype rfl hfragment) rfl rfl ?_
    rw [openBlock_append, openAfter, htype]

theorem yields_onContinuation (htype : frame.type = .continuation)
    (hid : frame.streamId = stream.id) (hopen : openBlock frames = some stream.id)
    (hreceived : stream.headersReceived = true) (h : Gathered hpack frames stream) :
    Yields hpack (frames ++ [frame]) (stream.onContinuation hpack frame) := by
  cases h with
  | reading _ _ _ _ _ _ _ _ _ hclosed => exact absurd hopen hclosed
  | opening before block hframes hblock hbody _ =>
    have hframes' : frames ++ [frame] = before ++ (block ++ [frame]) := by
      rw [hframes, append_assoc]
    unfold Stream.onContinuation
    rw [hreceived, if_neg nofun]
    split
    · exact .fatal _
    · refine yields_block hframes' (hblock.continuation htype hid) rfl hbody ?_
      rw [openBlock_append, openAfter, htype, hopen]

theorem yields_onData (htype : frame.type = .data) (hid : frame.streamId = stream.id)
    (hopen : openBlock frames ≠ some stream.id) (hreceived : stream.headersReceived = true)
    (h : Gathered hpack frames stream) :
    Yields hpack (frames ++ [frame]) (stream.onData frame) := by
  have hheads : frame.headsOn stream.id = false := by
    unfold headsOn
    rw [htype]
    rfl
  have hopen' : openBlock (frames ++ [frame]) ≠ some stream.id := by
    rw [openBlock_append, openAfter, htype]
    exact hopen
  unfold Stream.onData
  rw [hreceived, if_neg nofun]
  split
  · exact .reset _
  next data hdata =>
    split
    · exact .reset _
    have hon : frame.dataOn stream.id = data := by
      rw [dataOn, if_pos ⟨htype, hid⟩, hdata]
      rfl
    split
    next hends =>
      refine .finish ?_
      cases h with
      | opening _ _ _ _ _ hopen₀ => exact absurd hopen₀ hopen
      | reading before block rest bytes hframes hblock hheaders hbody hrest _ =>
        refine .intro before block (rest ++ [frame]) bytes false ?_ hblock hheaders ?_ ?_
          (.inr ⟨rest, frame, rfl, htype, hid, hends⟩)
        · rw [hframes, append_assoc]
        · change stream.body ++ data = (rest ++ [frame]).flatMap (dataOn stream.id)
          rw [hbody, flatMap_append, flatMap_singleton, hon]
        · exact forall_mem_append.mpr ⟨hrest, forall_mem_singleton.mpr hheads⟩
    · exact .keep rfl (h.reading_snoc hopen rfl rfl (by rw [hon]) hheads hopen')

end Frames

/-- What follows a frame that neither breaks a header block nor ends the connection. -/
structure Continues (hpack : Hpack) (frames : List Frame) (result : Session × List Effect) :
    Prop where
  keyed : result.1.Keyed
  received : ∀ id stream, result.1.streams.find? id = some stream → stream.headersReceived = true
  gathered : ∀ id stream, result.1.streams.find? id = some stream → Gathered hpack frames stream
  assembled : ∀ request, .handoff request ∈ result.2 → Assembled hpack frames request

namespace Tracks

variable {hpack : Hpack} {t : Transcript} {frame : Frame}
variable (h : Tracks hpack t) (hcontiguous : Contiguous t.frames frame)
include h hcontiguous

/-- A frame of no stream's request leaves the streams that it does not drop. -/
theorem continues_of_apart (hstreams : ∀ id stream, s'.streams.find? id = some stream →
      t.session.streams.find? id = some stream ∧ (frame.isPart = false ∨ frame.streamId ≠ id))
    (heffects : ∀ request, .handoff request ∉ effects) :
    Continues hpack (t.frames ++ [frame]) (s', effects) := by
  refine ⟨fun id stream hlive => h.keyed id stream (hstreams id stream hlive).1,
    fun id stream hlive => h.received id stream (hstreams id stream hlive).1,
    fun id stream hlive => ?_, fun request hmem => absurd hmem (heffects request)⟩
  obtain ⟨hlive, haside⟩ := hstreams id stream hlive
  refine (h.gathered id stream hlive).aside hcontiguous ?_ rfl rfl rfl
  rwa [h.keyed id stream hlive]

/-- The stream of the frame becomes what the frames make of it. -/
theorem continues_of_settle (effects : List Effect) {s : Session}
    (hstreams : s.streams = t.session.streams)
    (hids : ∀ stream, verdict.stream? = some stream → stream.id = frame.streamId)
    (hyields : Yields hpack (t.frames ++ [frame]) verdict)
    (hgoes : ∀ errorCode, verdict ≠ .fatal errorCode)
    (heffects : ∀ request, .handoff request ∉ effects) :
    Continues hpack (t.frames ++ [frame])
      ((s.settle frame.streamId verdict).1, effects ++ (s.settle frame.streamId verdict).2) := by
  have hkeyed : s.Keyed := by
    intro id stream hlive
    rw [hstreams] at hlive
    exact h.keyed id stream hlive
  have hstream (id : Nat) (stream : Stream)
      (hlive : (s.settle frame.streamId verdict).1.streams.find? id = some stream) :
      stream.headersReceived = true ∧ Gathered hpack (t.frames ++ [frame]) stream := by
    by_cases hid : id = frame.streamId
    · subst hid
      cases hyields with
      | fatal errorCode => exact absurd rfl (hgoes errorCode)
      | reset => cases (s.find?_settle_reset _ _).symm.trans hlive
      | keep hreceived hgathered =>
        rw [s.find?_settle_keep, Option.some.injEq] at hlive
        subst hlive
        exact ⟨hreceived, hgathered⟩
      | finish => cases (s.find?_settle_finish _ _).symm.trans hlive
    · rw [s.find?_settle_of_ne verdict hid, hstreams] at hlive
      refine ⟨h.received id stream hlive,
        (h.gathered id stream hlive).aside hcontiguous (.inr ?_) rfl rfl rfl⟩
      rw [h.keyed id stream hlive]
      exact Ne.symm hid
  refine ⟨keyed_settle hkeyed hids, fun id stream hlive => (hstream id stream hlive).1,
    fun id stream hlive => (hstream id stream hlive).2, fun request hmem => ?_⟩
  replace hmem := (mem_append.mp hmem).resolve_left (heffects request)
  cases hyields with
  | fatal | reset => cases mem_singleton.mp hmem
  | keep => cases hmem
  | finish hassembled =>
    cases mem_singleton.mp hmem
    exact hassembled

section
variable (hsingle : frame.type = .headers → t.session.streams.find? frame.streamId = none)
include hsingle

/-- A stream is judged by the frames so far. -/
theorem yields_of_judged (hlive : t.session.streams.find? frame.streamId = some stream)
    (hjudged : stream.Judged hpack frame verdict) :
    Yields hpack (t.frames ++ [frame]) verdict := by
  have hid := h.keyed _ _ hlive
  have hreceived := h.received _ _ hlive
  have hgathered := h.gathered _ _ hlive
  cases hjudged with
  | headers htype => cases (hsingle htype).symm.trans hlive
  | continuation htype =>
    refine yields_onContinuation htype hid.symm ?_ hreceived hgathered
    unfold Contiguous at hcontiguous
    split at hcontiguous
    next hopen => rw [hopen, hid, hcontiguous.2]
    · exact absurd htype hcontiguous
  | data htype =>
    refine yields_onData htype hid.symm ?_ hreceived hgathered
    intro hopen
    unfold Contiguous at hcontiguous
    rw [hopen] at hcontiguous
    cases htype.symm.trans hcontiguous.1
  | windowUpdate htype =>
    have hpart : frame.isPart = false := by
      rw [isPart, htype]
      rfl
    unfold Stream.onWindowUpdate
    split
    · exact .reset _
    · exact .keep hreceived (hgathered.aside hcontiguous (.inl hpart) rfl rfl rfl)

theorem continues_handleFrame (hgoes : (t.effectsOf hpack frame).any Effect.isFatal = false) :
    Continues hpack (t.frames ++ [frame]) ((t.session.charge frame).handleFrame hpack frame) := by
  have hfatal (errorCode : Nat) : .fatal errorCode ∉ t.effectsOf hpack frame := fun hmem =>
    any_eq_false.mp hgoes _ hmem rfl
  unfold Transcript.effectsOf at hfatal
  have hcharge := streams_charge frame t.session
  have hhandles := handles_handleFrame hpack frame (t.session.charge frame)
  revert hfatal hhandles
  generalize (t.session.charge frame).handleFrame hpack frame = result
  intro hfatal hhandles
  cases hhandles with
  | apart hpart hstreams _ heffects =>
    refine h.continues_of_apart hcontiguous (fun id stream hlive => ?_) fun request hmem => ?_
    · rw [hstreams, hcharge] at hlive
      exact ⟨hlive, .inl hpart⟩
    · obtain heq | ⟨payload, heq⟩ := heffects _ hmem
      · cases heq
      · cases heq
  | fatal errorCode => exact absurd (mem_singleton_self _) (hfatal errorCode)
  | dropped hpart =>
    refine h.continues_of_apart hcontiguous (fun id stream hlive => ?_) nofun
    rw [hcharge, OrdMap.find?_erase] at hlive
    split at hlive
    · cases hlive
    · exact ⟨hlive, .inl hpart⟩
  | reset errorCode _ =>
    refine h.continues_of_apart hcontiguous (fun id stream hlive => ?_) fun request hmem => ?_
    · change ((t.session.charge frame).streams.erase _).find? id = _ at hlive
      rw [hcharge, OrdMap.find?_erase] at hlive
      split at hlive
      · cases hlive
      next hne => exact ⟨hlive, .inr fun heq => hne heq.symm⟩
    · cases mem_singleton.mp hmem
  | opens htype _ _ =>
    refine h.continues_of_settle hcontiguous [.opened frame.streamId] hcharge
      (fun stream h => (Stream.kept_onHeaders h).1) (yields_onHeaders hpack t.frames htype)
      (fun errorCode hverdict => ?_) fun request hmem => ?_
    · refine hfatal errorCode (mem_cons_of_mem _ ?_)
      rw [hverdict]
      exact mem_singleton_self _
    · cases mem_singleton.mp hmem
  | @reads stream verdict credit hlive hverdict hcredit =>
    rw [hcharge] at hlive
    refine h.continues_of_settle hcontiguous credit hcharge
      (fun stream' hkept => (hverdict.kept hkept).1 (h.keyed _ _ hlive))
      (h.yields_of_judged hcontiguous hsingle hlive hverdict) (fun errorCode heq => ?_)
      fun request hmem => ?_
    · refine hfatal errorCode (mem_append_right _ ?_)
      rw [heq]
      exact mem_singleton_self _
    · obtain ⟨_, _, heq⟩ := hcredit _ hmem
      cases heq

end

end Tracks

/-! ## Runs -/

theorem Session.not_fatal_of_handoff {s : Session}
    (h : s.Handles hpack frame result) (hmem : .handoff request ∈ result.2) :
    result.2.any Effect.isFatal = false := by
  have hsettle (streamId : Nat) (verdict : Verdict)
      (hmem : .handoff request ∈ (s.settle streamId verdict).2) :
      (s.settle streamId verdict).2.any Effect.isFatal = false := by
    cases verdict with
    | fatal => cases mem_singleton.mp hmem
    | reset | keep | finish => rfl
  cases h with
  | apart _ _ _ heffects =>
    obtain heq | ⟨payload, heq⟩ := heffects _ hmem
    · cases heq
    · cases heq
  | fatal => cases mem_singleton.mp hmem
  | dropped => cases hmem
  | reset => cases mem_singleton.mp hmem
  | opens =>
    obtain heq | hmem := mem_cons.mp hmem
    · cases heq
    · exact hsettle _ _ hmem
  | reads _ _ hcredit =>
    rw [any_append, Bool.or_eq_false_iff]
    obtain hmem | hmem := mem_append.mp hmem
    · obtain ⟨_, _, heq⟩ := hcredit _ hmem
      cases heq
    · refine ⟨any_eq_false.mpr fun e he => ?_, hsettle _ _ hmem⟩
      obtain ⟨_, _, rfl⟩ := hcredit e he
      nofun

section Runs

variable {hpack : Hpack} {t : Transcript} {frame : Frame}

/-- A frame that is in order does not break a header block, unless it ends the connection. -/
theorem Orderly.resolve (h : Orderly t frame)
    (hgoes : (t.effectsOf hpack frame).any Effect.isFatal = false) :
    Contiguous t.frames frame := by
  refine h.contiguous.resolve_right fun hrejected => ?_
  obtain ⟨errorCode, -, hmem⟩ := connectionError_of_rejected hpack hrejected
  exact any_eq_false.mp hgoes _ hmem rfl

theorem tracks_receive (h : Tracks hpack t) (horderly : Orderly t frame)
    (hgoes : (t.effectsOf hpack frame).any Effect.isFatal = false) :
    Tracks hpack (t.receive hpack frame) := by
  obtain ⟨hkeyed, hreceived, hgathered, -⟩ :=
    h.continues_handleFrame (horderly.resolve hgoes) horderly.single hgoes
  refine ⟨hkeyed, hreceived, fun id stream hlive => ?_⟩
  rw [Transcript.frames_receive]
  exact hgathered id stream hlive

theorem promised_of_orderly (h : Tracks hpack t) (horderly : Orderly t frame) :
    Promised hpack t frame := by
  refine ⟨fun request hmem => ?_, horderly.contiguous.imp_right (connectionError_of_rejected hpack)⟩
  have hgoes := not_fatal_of_handoff
    (handles_handleFrame hpack frame (t.session.charge frame)) hmem
  exact (h.continues_handleFrame (horderly.resolve hgoes) horderly.single hgoes).assembled
    request hmem

end Runs

/-- If the client keeps its header blocks together and sends one for each stream, then every request
is handed to the handler complete and as it was sent, and every other frame in a header block is
answered with a connection error. -/
theorem requests_assembled (env : Env) (e : Exchange) (hrun : e.Dispatched env)
    (h : Machine.AllSteps (Transcript.receive env.hpack) Orderly {} e.transcript.frames) :
    Machine.AllSteps (Transcript.receive env.hpack) (Promised env.hpack) {} e.transcript.frames ∧
      e.requests = handoffs e.transcript.effects := by
  have hfollows := Exchange.Follows.moves hrun.moves
  refine ⟨?_, hfollows.dispatched⟩
  refine Machine.AllSteps.of_invariant (I := fun t => t.ended = false → Tracks env.hpack t)
    ?_ ?_ (fun _ => ⟨nofun, nofun, nofun⟩) (hfollows.unended.and h)
  · intro t frame htracks ⟨hended, horderly⟩ hgoes
    rw [Transcript.ended_receive, hended] at hgoes
    exact tracks_receive (htracks hended) horderly hgoes
  · exact fun t frame htracks ⟨hended, horderly⟩ => promised_of_orderly (htracks hended) horderly

def sentBy (frames : List Frame) : Exchange :=
  (Http2Connection.run (.answering {}) {} [.client frames]).exchange

/-- A request in a HEADERS frame and a CONTINUATION frame. -/
theorem requests_assembled_split :
    let e := sentBy [headersFrame 1 0x1, { type := .continuation, flags := 0x4, streamId := 1 }]
    e.requests.map Request.streamId = [1] ∧
      Machine.AllSteps (Transcript.receive (Env.answering {}).hpack)
        (Promised (Env.answering {}).hpack) {} e.transcript.frames := by
  intro e
  refine ⟨by decide +kernel, (requests_assembled (.answering {}) e (.reactor _ _) ?_).1⟩
  refine ⟨⟨.inl ?_, fun _ => rfl⟩, ⟨.inl ?_, nofun⟩, trivial⟩
  · exact nofun
  · exact ⟨rfl, rfl⟩

/-- The headers do not end. A PING frame in between is answered, and the request is handed to the
handler. -/
theorem request_without_endHeaders :
    let e := sentBy [headersFrame 1 0, { length := 8, type := .ping, payload := List.replicate 8 0 },
      { type := .data, flags := 0x1, streamId := 1 }]
    e.requests.map Request.streamId = [1] ∧
      (e.transcript.frames.all fun frame => !frame.has endHeaders) = true ∧
      e.transcript.ended = false := by
  decide +kernel

end Spaznet.Http2
