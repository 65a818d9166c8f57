import Spaznet.Http2.CoroutineDispatcher
import Spaznet.Lib.Intake

/-!
# Reading frames

Both dispatchers read the preface and the frames of a client off the bytes that have arrived. Here
the reader stands alone.
-/

namespace Spaznet.Http2

open List
open Http (Bytes)

structure Reader where
  phase : Phase := .preface
  buffer : Bytes := []
  deriving DecidableEq

/-- What is read off the stream. -/
inductive Item where
  | greeting
  | stranger
  | header
  | oversized
  | frame (frame : Frame)
  deriving DecidableEq

def Phase.need : Phase → Nat
  | .preface => kPrefaceLen
  | .frameHeader => 9
  | .framePayload header => header.length

/-- The item in these bytes, and the phase behind it. Nothing is read after a stranger and after an
oversized frame, so that the phase is of no account then. -/
def Phase.read (bytes : Bytes) : Phase → Item × Phase
  | .preface =>
    if bytes ≠ kPreface then (.stranger, .preface) else (.greeting, .frameHeader)
  | .frameHeader =>
    let header := Frame.readHeader bytes
    if header.length > ourSettings.maxFrameSize then (.oversized, .frameHeader)
    else if header.length = 0 then (.frame header, .frameHeader)
    else (.header, .framePayload header)
  | .framePayload header => (.frame { header with payload := bytes }, .frameHeader)

namespace Reader

def next? (r : Reader) : Option (Item × Reader) :=
  if r.buffer.length < r.phase.need then none
  else
    let (item, phase) := r.phase.read (r.buffer.take r.phase.need)
    some (item, { phase, buffer := r.buffer.drop r.phase.need })

def push (bytes : Bytes) (r : Reader) : Reader := { r with buffer := r.buffer ++ bytes }

/-- Only a payload may be empty. -/
def bound (r : Reader) : Nat :=
  match r.phase with
  | .framePayload _ => r.buffer.length + 1
  | _ => r.buffer.length

theorem bound_le (r : Reader) : r.bound ≤ r.buffer.length + 1 := by
  unfold bound
  split
  · exact Nat.le_refl _
  · exact Nat.le_succ _

variable {r r' : Reader} {item : Item}

theorem next?_of_lt (h : r.buffer.length < r.phase.need) : r.next? = none := if_pos h

theorem next?_of_le (h : r.phase.need ≤ r.buffer.length) :
    r.next? = some ((r.phase.read (r.buffer.take r.phase.need)).1,
      { phase := (r.phase.read (r.buffer.take r.phase.need)).2
        buffer := r.buffer.drop r.phase.need }) :=
  if_neg (Nat.not_lt.mpr h)

theorem next?_eq_some (h : r.next? = some (item, r')) :
    r.phase.need ≤ r.buffer.length ∧
      r.phase.read (r.buffer.take r.phase.need) = (item, r'.phase) ∧
      r'.buffer = r.buffer.drop r.phase.need := by
  by_cases hneed : r.phase.need ≤ r.buffer.length
  · rw [next?_of_le hneed] at h
    cases h
    exact ⟨hneed, rfl, rfl⟩
  · rw [next?_of_lt (Nat.not_le.mp hneed)] at h
    cases h

/-- **A round of either loop**: it waits for the rest of an item, or takes the item. -/
theorem round_eq (r : Reader) (wait : σ) (take : Item × Reader → σ) :
    (match r.phase with
      | .preface =>
        if r.buffer.length < kPrefaceLen then wait
        else if r.buffer.take kPrefaceLen ≠ kPreface then
          take (.stranger, ⟨.preface, r.buffer.drop kPrefaceLen⟩)
        else take (.greeting, ⟨.frameHeader, r.buffer.drop kPrefaceLen⟩)
      | .frameHeader =>
        if r.buffer.length < 9 then wait
        else
          let header := Frame.readHeader (r.buffer.take 9)
          if header.length > ourSettings.maxFrameSize then
            take (.oversized, ⟨.frameHeader, r.buffer.drop 9⟩)
          else if header.length = 0 then take (.frame header, ⟨.frameHeader, r.buffer.drop 9⟩)
          else take (.header, ⟨.framePayload header, r.buffer.drop 9⟩)
      | .framePayload header =>
        if r.buffer.length < header.length then wait
        else take (.frame { header with payload := r.buffer.take header.length },
          ⟨.frameHeader, r.buffer.drop header.length⟩)) =
      r.next?.elim wait take := by
  obtain ⟨phase, buffer⟩ := r
  by_cases hneed : buffer.length < phase.need
  · rw [next?_of_lt hneed]
    cases phase with
    | preface | frameHeader | framePayload => exact if_pos hneed
  rw [next?_of_le (Nat.not_lt.mp hneed)]
  cases phase with
  | preface =>
    refine (if_neg hneed).trans ?_
    dsimp only [Option.elim, Phase.read, Phase.need]
    split
    · rfl
    · rfl
  | frameHeader =>
    refine (if_neg hneed).trans ?_
    dsimp only [Option.elim, Phase.read, Phase.need]
    split
    · rfl
    split
    · rfl
    · rfl
  | framePayload => exact if_neg hneed

theorem bound_lt (h : r.next? = some (item, r')) :
    r'.bound < r.bound := by
  obtain ⟨hneed, hread, hbuffer⟩ := next?_eq_some h
  obtain ⟨phase, buffer⟩ := r
  obtain ⟨phase', buffer'⟩ := r'
  subst hbuffer
  cases phase with
  | preface =>
    refine (bound_le _).trans_lt ?_
    change (buffer.drop 24).length + 1 < buffer.length
    change 24 ≤ buffer.length at hneed
    rw [length_drop]
    omega
  | frameHeader =>
    refine (bound_le _).trans_lt ?_
    change (buffer.drop 9).length + 1 < buffer.length
    change 9 ≤ buffer.length at hneed
    rw [length_drop]
    omega
  | framePayload header =>
    cases hread
    change (buffer.drop header.length).length < buffer.length + 1
    rw [length_drop]
    omega

theorem next?_push (bytes : Bytes) (h : r.next? = some (item, r')) :
    (r.push bytes).next? = some (item, r'.push bytes) := by
  obtain ⟨hneed, hread, hbuffer⟩ := next?_eq_some h
  have hpushed : (r.push bytes).phase.need ≤ (r.push bytes).buffer.length :=
    hneed.trans (by rw [push, length_append]; omega)
  have hread' : (r.push bytes).phase.read ((r.push bytes).buffer.take (r.push bytes).phase.need) =
      (item, r'.phase) := by
    rw [← hread]
    exact congrArg (r.phase.read ·) (take_append_of_le_length hneed)
  have hbuffer' : (r.push bytes).buffer.drop (r.push bytes).phase.need = r'.buffer ++ bytes := by
    rw [hbuffer]
    exact drop_append_of_le_length hneed
  rw [next?_of_le hpushed, hread', hbuffer']
  rfl

def intake : Intake UInt8 Reader Item :=
  { next?
    push
    bound
    bound_lt
    push_append := fun xs ys r => by rw [push, push, push, append_assoc]
    next?_push }

theorem push_nil (r : Reader) : intake.push [] r = r := by
  change { r with buffer := r.buffer ++ [] } = r
  rw [append_nil]

end Reader

/-! ## What is read -/

/-- A frame as it is read: its length is right and within what we allow, and its id has 31 bits. -/
structure Frame.Legal (frame : Frame) : Prop where
  length_eq : frame.length = frame.payload.length
  length_le : frame.length ≤ ourSettings.maxFrameSize
  streamId_lt : frame.streamId < 2 ^ 31

namespace Reader

/-- The header that was read allows for a legal frame. -/
def Sound (r : Reader) : Prop :=
  ∀ header, r.phase = .framePayload header →
    header.length ≤ ourSettings.maxFrameSize ∧ header.streamId < 2 ^ 31

theorem sound_next? {r r' : Reader} (hr : r.Sound) (h : r.next? = some (item, r')) :
    r'.Sound ∧ ∀ frame, item = .frame frame → frame.Legal := by
  obtain ⟨hneed, hread, -⟩ := next?_eq_some h
  have hid (bytes : Bytes) : (Frame.readHeader bytes).streamId < 2 ^ 31 := Nat.mod_lt _ (by decide)
  obtain ⟨phase, buffer⟩ := r
  obtain ⟨phase', buffer'⟩ := r'
  cases phase with
  | preface =>
    dsimp only [Phase.read] at hread
    by_cases hne : buffer.take (Phase.need .preface) ≠ kPreface
    · rw [if_pos hne] at hread
      cases hread
      exact ⟨nofun, nofun⟩
    · rw [if_neg hne] at hread
      cases hread
      exact ⟨nofun, nofun⟩
  | frameHeader =>
    dsimp only [Phase.read] at hread
    set header := Frame.readHeader (buffer.take (Phase.need .frameHeader)) with hheader
    by_cases hbig : header.length > ourSettings.maxFrameSize
    · rw [if_pos hbig] at hread
      cases hread
      exact ⟨nofun, nofun⟩
    rw [if_neg hbig] at hread
    by_cases hempty : header.length = 0
    · rw [if_pos hempty] at hread
      cases hread
      refine ⟨nofun, ?_⟩
      rintro _ ⟨⟩
      exact ⟨hempty, Nat.not_lt.mp hbig, hid _⟩
    · rw [if_neg hempty] at hread
      cases hread
      refine ⟨?_, nofun⟩
      rintro _ ⟨⟩
      exact ⟨Nat.not_lt.mp hbig, hid _⟩
  | framePayload header =>
    obtain ⟨hlength, hstream⟩ := hr header rfl
    cases hread
    refine ⟨nofun, ?_⟩
    rintro _ ⟨⟩
    refine ⟨?_, hlength, hstream⟩
    exact (length_take_of_le hneed).symm

theorem sound_items (r : Reader) (hr : r.Sound) :
    (intake.rest r).Sound ∧ ∀ frame, .frame frame ∈ intake.items r → frame.Legal := by
  induction r using intake.induction with
  | none r h =>
    rw [Intake.items_of_none h, Intake.rest_of_none h]
    exact ⟨hr, nofun⟩
  | some r item r' h ih =>
    obtain ⟨hr', hitem⟩ := sound_next? hr h
    obtain ⟨hrest, hitems⟩ := ih hr'
    rw [Intake.items_of_some h, Intake.rest_of_some h]
    refine ⟨hrest, fun frame hframe => ?_⟩
    obtain heq | hmem := mem_cons.mp hframe
    · exact hitem frame heq.symm
    · exact hitems frame hmem

theorem Sound.push {r : Reader} (hr : r.Sound) (bytes : Bytes) : (r.push bytes).Sound := hr

theorem sound_start : ({} : Reader).Sound := nofun

/-- All that could be read has been read. -/
structure Idle (r : Reader) : Prop where
  next? : r.next? = none
  sound : r.Sound

theorem idle_start : ({} : Reader).Idle := ⟨rfl, sound_start⟩

end Reader

end Spaznet.Http2
