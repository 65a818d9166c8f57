import Spaznet.Http2.Actions

/-!
# The windows of the peer

A peer limits what it is sent by a window for the connection and one for each stream. The
dispatchers keep `conn_send_window_` and `send_window` and check that no increment overflows them,
but no response is measured against them. What is sent stays within the windows as long as the
responses do.
-/

namespace Spaznet.Http2

open List
open Http (Bytes)

/-! ## What is sent and what is allowed -/

def sent (on : Nat → Bool) (trace : List Note) : Nat :=
  (trace.map fun
    | .wrote frame => if on frame.streamId then frame.flowLength else 0
    | _ => 0).sum

def handed (on : Nat → Bool) (trace : List Note) : Nat :=
  (trace.map fun
    | .delivered streamId body => if on streamId then body.length else 0
    | _ => 0).sum

/-- What a WINDOW_UPDATE frame on a stream, or on the connection, adds. -/
def Frame.increment (streamId : Nat) (frame : Frame) : Nat :=
  if frame.type = .windowUpdate ∧ frame.streamId = streamId ∧ frame.payload.length = 4 then
    frame.windowIncrement
  else 0

def increments (streamId : Nat) (trace : List Note) : Nat :=
  (trace.map fun
    | .received frame => frame.increment streamId
    | _ => 0).sum

def Frame.applySettings (settings : Settings) (frame : Frame) : Settings :=
  if frame.type = .settings ∧ frame.streamId = 0 ∧ frame.has Flags.ack = false ∧
      frame.payload.length % 6 = 0 then
    settings.parseInto frame.payload
  else settings

def peerSettings (trace : List Note) : Settings :=
  trace.foldl (fun
    | settings, .received frame => frame.applySettings settings
    | settings, _ => settings) {}

def connCredit (trace : List Note) : Nat := kInitialWindow + increments 0 trace

def streamCredit (streamId : Nat) (trace : List Note) : Nat :=
  (peerSettings trace).initialWindowSize + increments streamId trace

structure WithinWindows (trace : List Note) : Prop where
  connection : sent (fun _ => true) trace ≤ connCredit trace
  stream : ∀ streamId, sent (· == streamId) trace ≤ streamCredit streamId trace

/-- What comes next fits: a response into what is left of the windows, and new settings leave room
for what was delivered. -/
def Affordable (past : List Note) : Note → Prop
  | .delivered streamId body =>
    handed (fun _ => true) past + body.length ≤ connCredit past ∧
      handed (· == streamId) past + body.length ≤ streamCredit streamId past
  | .received frame =>
    ∀ streamId, handed (· == streamId) past ≤ streamCredit streamId (past ++ [.received frame])
  | .wrote _ => True

/-! ## Responses bound what is sent -/

section Sums

variable (on : Nat → Bool) (trace trace' : List Note)

theorem handed_append : handed on (trace ++ trace') = handed on trace + handed on trace' := by
  unfold handed
  rw [map_append, sum_append]

theorem increments_append (streamId : Nat) :
    increments streamId (trace ++ trace') =
      increments streamId trace + increments streamId trace' := by
  unfold increments
  rw [map_append, sum_append]

theorem handed_wrote (frames : List Frame) : handed on (frames.map .wrote) = 0 := by
  unfold handed
  rw [map_map]
  exact sum_eq_zero fun n hn => by
    obtain ⟨frame, -, rfl⟩ := mem_map.mp hn
    rfl

end Sums

/-- At no moment more was sent than was delivered. -/
def Backed (trace : List Note) : Prop := ∀ on n, sent on (trace.take n) ≤ handed on (trace.take n)

theorem Backed.append (h : Backed trace) (h' : Backed trace') : Backed (trace ++ trace') := by
  intro on n
  rw [take_append, sent, map_append, sum_append, handed_append]
  exact Nat.add_le_add (h on n) (h' on _)

theorem sent_wrote_take {frames : List Frame}
    (hstream : ∀ frame ∈ frames, frame.streamId = streamId)
    (hflow : (frames.map Frame.flowLength).sum ≤ size) (on : Nat → Bool) (n : Nat) :
    sent on ((frames.map .wrote).take n) ≤ if on streamId then size else 0 := by
  have hsub : (frames.take n).Sublist frames := take_sublist n frames
  rw [← map_take, sent, map_map]
  split
  next hon =>
    refine le_trans ?_ hflow
    refine le_trans ?_ ((hsub.map Frame.flowLength).sum_le_sum fun _ _ => Nat.zero_le _)
    refine sum_le_sum fun frame _ => ?_
    dsimp only [Function.comp]
    split
    · exact Nat.le_refl _
    · exact Nat.zero_le _
  next hoff =>
    refine Nat.le_zero.mpr (sum_eq_zero fun m hm => ?_)
    obtain ⟨frame, hframe, rfl⟩ := mem_map.mp hm
    exact if_neg (by rwa [hstream frame (hsub.subset hframe)])

theorem backed_of_emitted (h : Exchange.Emitted notes) : Backed notes := by
  induction h with
  | nil =>
    intro on n
    rw [take_nil]
    exact Nat.le_refl _
  | @write frame notes hdata _ ih =>
    have hfree : Backed [.wrote frame] := by
      intro on n
      cases n with
      | zero => exact Nat.le_refl _
      | succ n =>
        rw [take_succ_cons, take_nil]
        change (if on frame.streamId then frame.flowLength else 0) ≤ 0
        rw [flowLength_of_ne hdata, ite_self]
    exact hfree.append ih
  | @deliver streamId body frames notes hstream hflow _ ih =>
    have hresponse : Backed (.delivered streamId body :: frames.map .wrote) := by
      intro on n
      cases n with
      | zero => exact Nat.le_refl _
      | succ n =>
        rw [take_succ_cons, ← map_take]
        change 0 + sent on ((frames.take n).map .wrote) ≤
          (if on streamId then body.length else 0) + handed on ((frames.take n).map .wrote)
        rw [handed_wrote, Nat.zero_add, map_take]
        exact sent_wrote_take hstream hflow on n
    exact hresponse.append ih

theorem backed_received (frame : Frame) : Backed [.received frame] := by
  intro on n
  cases n with
  | zero => exact Nat.le_refl _
  | succ n =>
    rw [take_succ_cons, take_nil]
    exact Nat.le_refl 0

theorem Exchange.backed {e : Exchange} (h : Moves hpack {} e) : Backed e.trace := by
  induction h with
  | refl => exact backed_of_emitted .nil
  | tail _ hmove ih =>
    cases hmove with
    | receive frame => exact ih.append (backed_received frame)
    | emit hemits =>
      obtain ⟨notes, hemitted, htrace⟩ := hemits.trace
      rw [htrace]
      exact ih.append (backed_of_emitted hemitted)

/-! ## Affordable responses -/

structure Covered (past : List Note) : Prop where
  connection : handed (fun _ => true) past ≤ connCredit past
  stream : ∀ streamId, handed (· == streamId) past ≤ streamCredit streamId past

theorem peerSettings_of_not_received (past : List Note) (h : ∀ frame, note ≠ .received frame) :
    peerSettings (past ++ [note]) = peerSettings past := by
  unfold peerSettings
  rw [foldl_append]
  cases note with
  | received frame => exact absurd rfl (h frame)
  | delivered => rfl
  | wrote => rfl

theorem credit_of_not_received (past : List Note) (note : Note)
    (h : ∀ frame, note ≠ .received frame) :
    connCredit (past ++ [note]) = connCredit past ∧
      ∀ streamId, streamCredit streamId (past ++ [note]) = streamCredit streamId past := by
  have hzero (streamId : Nat) : increments streamId [note] = 0 := by
    cases note with
    | received frame => exact absurd rfl (h frame)
    | delivered => rfl
    | wrote => rfl
  refine ⟨?_, fun streamId => ?_⟩
  · rw [connCredit, connCredit, increments_append, hzero, Nat.add_zero]
  · rw [streamCredit, streamCredit, increments_append, hzero, Nat.add_zero,
      peerSettings_of_not_received past h]

theorem Covered.snoc (h : Covered past) (ha : Affordable past note) :
    Covered (past ++ [note]) := by
  cases note with
  | received frame =>
    refine ⟨?_, fun streamId => ?_⟩
    · have hconn := h.connection
      rw [connCredit] at hconn ⊢
      rw [handed_append, increments_append]
      change handed _ past + 0 ≤ _
      omega
    · rw [handed_append]
      exact ha streamId
  | delivered streamId body =>
    obtain ⟨hconn, hstream⟩ := credit_of_not_received past (.delivered streamId body) nofun
    refine ⟨?_, fun id => ?_⟩
    · rw [hconn, handed_append]
      exact ha.1
    · rw [hstream, handed_append]
      change _ + (if streamId == id then body.length else 0) ≤ _
      split
      next heq =>
        rw [beq_iff_eq] at heq
        subst heq
        exact ha.2
      · exact h.stream id
  | wrote frame =>
    obtain ⟨hconn, hstream⟩ := credit_of_not_received past (.wrote frame) nofun
    refine ⟨?_, fun id => ?_⟩
    · rw [hconn, handed_append]
      exact h.connection
    · rw [hstream, handed_append]
      exact h.stream id

theorem covered_take {notes : List Note}
    (h : ∀ n note, notes[n]? = some note → Affordable (notes.take n) note) (n : Nat) :
    Covered (notes.take n) := by
  induction n with
  | zero =>
    exact ⟨Nat.zero_le _, fun _ => Nat.zero_le _⟩
  | succ n ih =>
    cases hn : notes[n]? with
    | none =>
      rw [List.getElem?_eq_none_iff] at hn
      rwa [take_of_length_le (by omega), ← take_of_length_le hn]
    | some note =>
      rw [take_add_one, hn]
      exact ih.snoc (h n note hn)

/-- If every response fits into what is left of the windows when it is delivered, and no settings
take away what was used, then at every moment what was sent is within the windows. -/
theorem within_windows_of_affordable (env : Env) (e : Exchange) (hrun : e.Dispatched env)
    (h : ∀ n note, e.trace[n]? = some note → Affordable (e.trace.take n) note) (n : Nat) :
    WithinWindows (e.trace.take n) := by
  have hbacked := Exchange.backed hrun.moves
  have hcovered := covered_take h n
  exact ⟨(hbacked _ n).trans hcovered.connection,
    fun streamId => (hbacked _ n).trans (hcovered.stream streamId)⟩

def oneByte (frames : List Frame) : Exchange :=
  (Http2Connection.run (.answering { body := [0x61] }) {}
    [.client (frames ++ [headersFrame 1 0x5])]).exchange

theorem within_windows_oneByte :
    sent (· == 1) (oneByte []).trace = 1 ∧ WithinWindows ((oneByte []).trace.take 5) := by
  refine ⟨by decide +kernel, within_windows_of_affordable _ _ (.reactor _ _) ?_ 5⟩
  intro n note hn
  rcases n with _ | _ | _ | _ | _ | n
  · cases hn
    trivial
  · cases hn
    exact fun _ => Nat.zero_le _
  · cases hn
    exact ⟨by decide, by decide⟩
  · cases hn
    trivial
  · cases hn
    trivial
  · cases hn

/-- A peer that grants no window to its streams is sent a byte. -/
theorem data_exceeds_window :
    let trace := (oneByte [{ length := 6, type := .settings, payload := Settings.parameter 0x4 0 }]).trace
    sent (· == 1) trace = 1 ∧ streamCredit 1 trace = 0 := by
  decide +kernel

end Spaznet.Http2
