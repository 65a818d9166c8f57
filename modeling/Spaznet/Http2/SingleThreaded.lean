import Spaznet.Http2.Actions

/-!
# The coroutine dispatcher on one thread

On a context without worker threads `schedule` runs a dispatch at once, and so before the next frame
is read.
-/

namespace Spaznet.Http2

open List Reader Intake
open Http (Bytes)
open Reactor (IOContext)

namespace ConnState

/-- A read, and the dispatch that it schedules. `read_exact` asks for what is missing, so that there
is one at most. -/
def onRead (env : Env) (bytes : Bytes) (c : ConnState) : ConnState :=
  step env (step env c (.read bytes)) (.start c.dispatches.length)

/-- A segment is read piece by piece. Every read takes a byte at least, so that `fuel` for each of
them is enough. -/
def onSegment (env : Env) : (fuel : Nat) → Bytes → ConnState → ConnState
  | 0, _, c => c
  | fuel + 1, bytes, c =>
    if bytes = [] then c
    else
      let missing := c.phase.need - c.buffer.length
      onSegment env fuel (bytes.drop missing) (c.onRead env (bytes.take missing))

def runSingle (env : Env) (ctx : IOContext) (segments : List Bytes) : ConnState :=
  segments.foldl (fun c bytes => c.onSegment env bytes.length bytes) { ctx }

/-- An item is taken, and the dispatch that it schedules is run. -/
def takeInline (env : Env) (c : ConnState) (item : Item) : ConnState :=
  act env (act env c (.item item)) (.start c.dispatches.length)

end ConnState

/-! ## One item at a time -/

theorem Phase.need_read_pos (bytes : Bytes) (phase : Phase) : 0 < (phase.read bytes).2.need := by
  cases phase with
  | preface =>
    dsimp only [read]
    split
    · exact Nat.succ_pos 23
    · exact Nat.succ_pos 8
  | frameHeader =>
    dsimp only [read]
    split
    · exact Nat.succ_pos 8
    split
    · exact Nat.succ_pos 8
    next hempty => exact Nat.pos_of_ne_zero hempty
  | framePayload => exact Nat.succ_pos 8

theorem Reader.items_of_le (h : r.buffer.length ≤ r.phase.need) :
    intake.items r = [] ∨ ∃ item, intake.items r = [item] := by
  cases hnext : r.next? with
  | none => exact .inl (items_of_none (I := intake) hnext)
  | some p =>
    obtain ⟨item, r'⟩ := p
    obtain ⟨hneed, hread, hbuffer⟩ := next?_eq_some hnext
    have hpos : 0 < r'.phase.need := by
      have := Phase.need_read_pos (r.buffer.take r.phase.need) r.phase
      rwa [hread] at this
    have hnone : r'.next? = none := by
      refine next?_of_lt ?_
      rw [hbuffer, length_drop]
      omega
    refine .inr ⟨item, ?_⟩
    rw [items_of_some (I := intake) hnext, items_of_none (I := intake) hnone]

theorem Reader.lt_need_of_next? {r : Reader} (h : r.next? = none) :
    r.buffer.length < r.phase.need := by
  by_contra hle
  rw [next?_of_le (Nat.not_lt.mp hle)] at h
  cases h

namespace ConnState

variable {env : Env} {c a : ConnState} {r : Reader}

theorem step_start_of_length (env : Env) (h : c.dispatches.length = n) :
    step env c (.start n) = c := by
  unfold step
  dsimp only
  rw [getElem?_eq_none (Nat.le_of_eq h)]

section
variable (h : (!c.serving) = true)
include h

theorem takeInline_of_stopped (item : Item) : c.takeInline env item = c := by
  have hitem : act env c (.item item) = c := if_pos h
  rw [takeInline, hitem]
  exact step_start_of_length env rfl

theorem onSegment_of_stopped (fuel : Nat) (bytes : Bytes) : c.onSegment env fuel bytes = c := by
  induction fuel generalizing bytes with
  | zero => rfl
  | succ fuel ih =>
    have hread (bytes : Bytes) : c.onRead env bytes = c := by
      have hstep : step env c (.read bytes) = c := if_pos h
      rw [onRead, hstep]
      exact step_start_of_length env rfl
    unfold onSegment
    split
    · rfl
    · dsimp only
      rw [hread, ih]

end

/-- A read of no more than what is missing takes one item at most. -/
theorem took_onRead (h : (driver env.hpack).Took r c a) (bytes : Bytes)
    (hbytes : (r.push bytes).buffer.length ≤ r.phase.need) :
    (driver env.hpack).Took (intake.rest (r.push bytes)) (c.onRead env bytes)
      ((intake.items (r.push bytes)).foldl (takeInline env) a) := by
  have hdispatches : c.dispatches = a.dispatches := by
    obtain ⟨r', rfl⟩ := h.like
    rfl
  have hread : (driver env.hpack).Took _ (step env (step env c (.read bytes))
      (.start c.dispatches.length)) _ := took_step env nofun nofun (took_read env h bytes)
  unfold onRead
  obtain hnone | ⟨item, hone⟩ := items_of_le (r := r.push bytes) hbytes
  · rw [hnone, hdispatches] at hread ⊢
    rwa [map_nil, Machine.run, foldl_nil, step_start_of_length env rfl] at hread
  · rw [hone, hdispatches] at hread ⊢
    exact hread

/-- A segment comes to the items that are read off it. -/
theorem took_onSegment (h : (driver env.hpack).Took r c a) (hr : r.next? = none) (fuel : Nat)
    (bytes : Bytes) (hfuel : bytes.length ≤ fuel) :
    (driver env.hpack).Took (intake.rest (r.push bytes)) (c.onSegment env fuel bytes)
      ((intake.items (r.push bytes)).foldl (takeInline env) a) := by
  induction fuel generalizing r c a bytes with
  | zero =>
    have hpush : r.push [] = r := push_nil r
    rw [eq_nil_of_length_eq_zero (Nat.le_zero.mp hfuel), hpush,
      items_of_none (I := intake) hr, rest_of_none (I := intake) hr]
    exact h
  | succ fuel ih =>
    cases hserving : (!c.serving) with
    | true =>
      have hstopped : (driver env.hpack).stopped c = true := hserving
      rw [onSegment_of_stopped hserving,
        foldl_fixed' (takeInline_of_stopped (h.stopped_eq.symm.trans hstopped))]
      exact ⟨h.like, fun hgoes => nomatch hstopped.symm.trans hgoes⟩
    | false =>
      unfold onSegment
      split
      next hnil =>
        have hpush : r.push [] = r := push_nil r
        rw [hnil, hpush, items_of_none (I := intake) hr,
          rest_of_none (I := intake) hr]
        exact h
      next hne =>
        have hreads : c.reader = r := h.reads hserving
        have hlt := lt_need_of_next? hr
        rw [← hreads] at hlt
        change c.buffer.length < c.phase.need at hlt
        set missing := c.phase.need - c.buffer.length with hmissing
        have hfirst : ((r.push (bytes.take missing)).buffer).length ≤ r.phase.need := by
          rw [← hreads]
          change (c.buffer ++ bytes.take missing).length ≤ c.phase.need
          rw [length_append, length_take]
          omega
        have hrest := ih (took_onRead h (bytes.take missing) hfirst)
          (next?_rest (I := intake) _) (bytes.drop missing) (by
            rw [length_drop]
            omega)
        have hpush : (r.push (bytes.take missing)).push (bytes.drop missing) = r.push bytes := by
          conv_rhs => rw [← take_append_drop missing bytes]
          exact (intake.push_append _ _ r).symm
        have hitems := intake.items_push (bytes.drop missing) (r.push (bytes.take missing))
        have hbehind := intake.rest_push (bytes.drop missing) (r.push (bytes.take missing))
        change intake.items ((r.push _).push _) = _ at hitems
        change intake.rest ((r.push _).push _) = _ at hbehind
        rw [hpush] at hitems hbehind
        rw [hitems, hbehind, foldl_append]
        exact hrest

theorem took_segments (env : Env) (segments : List Bytes) (h : (driver env.hpack).Took r c a)
    (hr : r.next? = none) :
    ∃ r', (driver env.hpack).Took r'
      (segments.foldl (fun c bytes => c.onSegment env bytes.length bytes) c)
      ((intake.itemsOf r segments).foldl (takeInline env) a) := by
  induction segments generalizing r c a with
  | nil => exact ⟨r, h⟩
  | cons bytes segments ih =>
    rw [itemsOf, foldl_append]
    exact ih (took_onSegment h hr _ bytes (Nat.le_refl _))
      (next?_rest (I := intake) _)

/-- On one thread, a connection is where the items of its segments have led it. -/
theorem core_runSingle (env : Env) (ctx : IOContext) (segments : List Bytes) :
    (runSingle env ctx segments).core =
      ((intake.itemsOf {} segments).foldl (takeInline env) { ctx }).core := by
  have hstart : (driver env.hpack).Took {} { ctx } { ctx } := .refl ({ ctx } : ConnState)
  obtain ⟨_, h⟩ := took_segments env segments hstart rfl
  obtain ⟨_, hlike⟩ := h.like
  exact (congrArg core hlike).trans rfl

end ConnState

end Spaznet.Http2
