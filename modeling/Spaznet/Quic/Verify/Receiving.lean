import Spaznet.Quic.Stream.Content
import Spaznet.Quic.Stream.Window

/-!
# The receive side of a stream, whatever the peer sends

What is read is an initial segment of the content, and what is buffered fits the window. The final
size, once fixed, stays; it lies above the data received as long as the frame that fixes it does not
name a smaller one, which neither `deliver` nor `reset_recvd` checks. A reset ends the reading unless
its final size is where the read cursor stands, since a read decides the end from the offsets.
-/

namespace Spaznet.Quic.Stream

open Ranges Session

/-! ## Reassembly -/

def RecvCall.Carries (S : Bytes) : RecvCall → Prop
  | .deliver offset data _ => IsSlice S offset data
  | .readContiguous => True

/-- The chunks are slices of `S` between the cursor and the high-water mark, which is in the
window. -/
structure Reassembles (S : Bytes) (s : Stream) : Prop extends Holds S s where
  ends : EndsBy s.recvHighWater s.recvChunks
  cursor : s.recvReadOffset ≤ s.recvHighWater
  inside : s.recvHighWater ≤ S.length
  limit : s.recvHighWater ≤ s.recvLimit

namespace Reassembles

theorem deliver (h : Reassembles S s) (hS : S.length < 2 ^ 64) (hs : IsSlice S offset data) :
    Reassembles S (s.deliver offset data fin).2 := by
  have hdel := s.delivering offset data fin
  generalize s.deliver offset data fin = r at hdel ⊢
  cases hdel with
  | ignored | refused => exact h
  | accepted _ hr =>
    have hend : Word64.add offset data.length = offset + data.length :=
      Word64.add_eq (hs.1.trans_lt hS)
    have hinside : max s.recvHighWater (Word64.add offset data.length) ≤ S.length :=
      max_le h.inside (hend ▸ hs.1)
    refine ⟨⟨h.read_le, deliveredChunks_ok h.chunks hS hs⟩, ?_, h.cursor.trans (le_max_left _ _),
      hinside, max_le h.limit (not_refuses hr).1⟩
    refine deliveredChunks_endsBy (h.ends.mono (le_max_left _ _)) (hinside.trans_lt hS) ?_
    exact hend ▸ le_max_right _ _

theorem readContiguous (h : Reassembles S s) : Reassembles S s.readContiguous.2 := by
  have hholds := h.toHolds.readContiguous.1
  have hread := s.reading
  generalize s.readContiguous = r at hread hholds ⊢
  cases hread with
  | hole => exact h
  | empty => exact ⟨hholds, h.ends, h.cursor, h.inside, h.limit⟩
  | @drained c rest t hc hat heq =>
    subst heq
    have hends := hc ▸ h.ends
    have hcursor := (Word64.add_le _ _).trans (hat ▸ hends c List.mem_cons_self)
    exact ⟨hholds, hends.tail, hcursor, h.inside, h.limit⟩

end Reassembles

theorem deliver_of_refused {s : Stream} (h : (s.deliver offset data fin).1 = false) :
    (s.deliver offset data fin).2 = s := by
  have hdel := s.delivering offset data fin
  generalize s.deliver offset data fin = r at h hdel ⊢
  cases hdel with
  | ignored | refused => rfl
  | accepted => cases h

/-- Along every run of frames that carry slices of `S`. -/
theorem run_reassembles (hS : S.length < 2 ^ 64) (id recvLimit sendLimit : Nat)
    (hcalls : ∀ call ∈ calls, RecvCall.Carries S call) :
    let x := Machine.run step (init id recvLimit sendLimit) calls
    x.read = S.take x.stream.recvReadOffset ∧ Reassembles S x.stream := by
  refine List.foldlRecOn (motive := fun x : Session =>
    x.read = S.take x.stream.recvReadOffset ∧ Reassembles S x.stream) calls step ?_ ?_
  · exact ⟨rfl, ⟨Nat.zero_le _, .nil⟩, fun _ hc => absurd hc List.not_mem_nil, Nat.le_refl _,
      Nat.zero_le _, Nat.zero_le _⟩
  · rintro x ⟨hread, h⟩ (⟨offset, data, fin⟩ | -) hmem
    · refine ⟨?_, h.deliver hS (hcalls _ hmem)⟩
      exact hread.trans (congrArg S.take (recvReadOffset_deliver _ _ _ _).symm)
    · exact ⟨(congrArg (· ++ _) hread).trans h.toHolds.readContiguous.2, h.readContiguous⟩

/-- What is read of a stream is always an initial segment of its content, and its buffer fits the
window. -/
theorem reassembly_sound (S : Bytes) (hS : S.length < 2 ^ 64) (id recvLimit sendLimit : Nat)
    (calls : List RecvCall) (hcalls : ∀ call ∈ calls, RecvCall.Carries S call) :
    let x := Machine.run step (init id recvLimit sendLimit) calls
    x.read <+: S ∧
      x.stream.recvChunks.Pairwise (fun a b => a.1 + a.2.length < b.1) ∧
      (∀ c ∈ x.stream.recvChunks, x.stream.recvReadOffset ≤ c.1) ∧
      x.stream.recvReadOffset ≤ x.stream.recvHighWater ∧
      x.stream.recvHighWater ≤ x.stream.recvLimit ∧
      (x.stream.recvChunks.map (·.2.length)).sum ≤ x.stream.recvLimit - x.stream.recvReadOffset ∧
      ∀ offset data fin, (x.stream.deliver offset data fin).1 = false →
        (x.stream.deliver offset data fin).2 = x.stream := by
  obtain ⟨hread, h⟩ := run_reassembles hS id recvLimit sendLimit hcalls
  have hsum := sum_length_le h.cursor (h.chunks.apart.imp Nat.le_of_lt)
    fun c hc => ⟨(h.chunks.each c hc).le, h.ends c hc⟩
  refine ⟨hread ▸ List.take_prefix _ _, h.chunks.apart, fun c hc => (h.chunks.each c hc).le,
    h.cursor, h.limit, hsum.trans (Nat.sub_le_sub_right h.limit _), ?_⟩
  exact fun _ _ _ => deliver_of_refused

/-- Overlapping frames, one past the window, with reads between them. -/
theorem reassembly_sound_overlap :
    (Machine.run step (init 0 4 0) [.deliver 2 [3, 4] false, .deliver 3 [4, 5] false,
      .deliver 0 [1, 2, 3] true, .readContiguous]).read <+: [1, 2, 3, 4, 5] := by
  refine (reassembly_sound [1, 2, 3, 4, 5] (by decide) 0 4 0 _ ?_).1
  simp [RecvCall.Carries, IsSlice]

/-! ## The final size -/

inductive Inbound where
  | stream (offset : Nat) (data : Bytes) (fin : Bool)
  | resetStream (finalSize appError : Nat)
  deriving DecidableEq, Repr

def Inbound.size : Inbound → Nat
  | .stream offset data _ => Word64.add offset data.length
  | .resetStream finalSize _ => finalSize

/-- The frame names its end as the final size. -/
def Inbound.fixes : Inbound → Bool
  | .stream _ _ fin => fin
  | .resetStream _ _ => true

def receive (s : Stream) : Inbound → Bool × Stream
  | .stream offset data fin => s.deliver offset data fin
  | .resetStream finalSize appError => s.resetRecvd finalSize appError

/-- The final size stays, the data received stay below it, and a smaller one is rejected, or ignored
once the stream is reset. -/
structure SizeConsistent (s : Stream) (f : Inbound) (r : Bool × Stream) : Prop where
  stays : ∀ n, s.recvFinalSize = some n → r.2.recvFinalSize = some n
  above : ∀ n, r.2.recvFinalSize = some n → r.2.recvHighWater ≤ n
  rejects : f.fixes = true → f.size < s.recvHighWater → r.1 = false ∨ ¬ s.NotReset ∧ r.2 = s

/-- A frame that fixes the final size does not name one below the data received. -/
def SizeFits (s : Stream) (f : Inbound) : Prop :=
  f.fixes = true → s.recvFinalSize = none → s.recvHighWater ≤ f.size

/-- A frame is ignored after a reset, rejected, or taken. -/
inductive Receives (s : Stream) (f : Inbound) : Bool × Stream → Prop where
  | ignored (h : ¬ s.NotReset) : Receives s f (true, s)
  | rejected (hr : s.refuses f.size f.fixes = true) : Receives s f (false, s)
  | taken (hr : ¬ s.refuses f.size f.fixes = true)
    (hfinal : t.recvFinalSize = if f.fixes then some f.size else s.recvFinalSize)
    (hhigh : t.recvHighWater = max s.recvHighWater f.size) (hlimit : t.recvLimit = s.recvLimit)
    (hreset : ¬ t.NotReset → f.fixes = true) : Receives s f (true, t)

theorem receives (s : Stream) (f : Inbound) : Receives s f (s.receive f) := by
  cases f with
  | stream offset data fin =>
    have h := s.delivering offset data fin
    show Receives _ _ (s.deliver offset data fin)
    generalize s.deliver offset data fin = r at h ⊢
    cases h with
    | ignored hreset => exact .ignored hreset
    | refused hr => exact .rejected hr
    | accepted hreset hr =>
      have hnext := NotReset.nextRecvState (s := s.received offset data fin) hreset
      exact .taken hr rfl rfl rfl fun hnot => absurd hnext hnot
  | resetStream finalSize appError =>
    have h := s.resetting finalSize appError
    show Receives _ _ (s.resetRecvd finalSize appError)
    generalize s.resetRecvd finalSize appError = r at h ⊢
    cases h with
    | refused hr => exact .rejected hr
    | accepted hr => exact .taken hr rfl rfl rfl fun _ => rfl

/-- What holds along a run whose frames fit. -/
structure SizeInv (s : Stream) : Prop where
  above : ∀ n, s.recvFinalSize = some n → s.recvHighWater ≤ n
  limit : s.recvHighWater ≤ s.recvLimit
  reset : ¬ s.NotReset → s.recvFinalSize ≠ none

/-- A frame keeps the sizes consistent exactly when it fits, and then the invariant. -/
theorem SizeInv.receive (h : SizeInv s) (f : Inbound) :
    (SizeConsistent s f (s.receive f) ↔ SizeFits s f) ∧
      (SizeFits s f → SizeInv (s.receive f).2) := by
  have hrec := s.receives f
  generalize s.receive f = r at hrec ⊢
  cases hrec with
  | ignored hreset =>
    have hfit : SizeFits s f := fun _ hnone => absurd hnone (h.reset hreset)
    exact ⟨iff_of_true ⟨fun _ hn => hn, h.above, fun _ _ => .inr ⟨hreset, rfl⟩⟩ hfit, fun _ => h⟩
  | rejected hr =>
    have hfit : SizeFits s f := by
      intro _ hnone
      rw [refuses, hnone, Bool.or_false, decide_eq_true_eq] at hr
      exact h.limit.trans hr.le
    exact ⟨iff_of_true ⟨fun _ hn => hn, h.above, fun _ _ => .inl rfl⟩ hfit, fun _ => h⟩
  | @taken t hr hfinal hhigh hlimit hreset =>
    obtain ⟨hle, hagrees⟩ := not_refuses hr
    have hsize (hfit : SizeFits s f) (hfixes : f.fixes = true) : s.recvHighWater ≤ f.size := by
      cases hsome : s.recvFinalSize with
      | none => exact hfit hfixes hsome
      | some n => exact ((hagrees n hsome).2 hfixes).symm ▸ h.above n hsome
    have habove (hfit : SizeFits s f) : ∀ n, t.recvFinalSize = some n → t.recvHighWater ≤ n := by
      intro n hn
      rw [hfinal] at hn
      rw [hhigh]
      split at hn
      next hfixes => exact max_le (Option.some.inj hn ▸ hsize hfit hfixes) (Option.some.inj hn).le
      · exact max_le (h.above n hn) (hagrees n hn).1
    refine ⟨⟨fun hc hfixes _ => ?_, fun hfit => ⟨fun n hn => ?_, habove hfit, ?_⟩⟩,
      fun hfit => ⟨habove hfit, ?_, ?_⟩⟩
    · rw [if_pos hfixes] at hfinal
      exact (hhigh ▸ le_max_left _ _).trans (hc.above _ hfinal)
    · rw [hfinal]
      split
      next hfixes => rw [(hagrees n hn).2 hfixes]
      · exact hn
    · exact fun hfixes hlt => absurd (hsize hfit hfixes) hlt.not_ge
    · exact hhigh.trans_le (hlimit ▸ max_le h.limit hle)
    · intro hnot
      rw [hfinal, if_pos (hreset hnot)]
      exact Option.some_ne_none _

/-- The final size is consistent along a run exactly when no frame that fixes it names one below the
data received. -/
theorem final_size_consistent_iff (id recvLimit sendLimit : Nat) (frames : List Inbound) :
    let step := fun s f => (receive s f).2
    Machine.AllSteps step (fun s f => SizeConsistent s f (s.receive f))
        { id, recvLimit, sendLimit } frames ↔
      Machine.AllSteps step SizeFits { id, recvLimit, sendLimit } frames := by
  have hinit : SizeInv { id, recvLimit, sendLimit } :=
    ⟨fun _ hn => (Option.some_ne_none _ hn.symm).elim, Nat.zero_le _, fun h => (h nofun).elim⟩
  exact Machine.allSteps_congr (A := fun _ _ => True) (fun s f h _ => (h.receive f).1)
    (fun s f h _ _ hfit => (h.receive f).2 hfit) hinit
    (Machine.allSteps_of_forall (fun _ _ => trivial) _ _)

/-- A FIN and a reset below the data received are accepted. -/
theorem final_size_below_accepted :
    let s := (receive { id := 0, recvLimit := 9, sendLimit := 0 } (.stream 0 [1, 2, 3] false)).2
    ∀ f ∈ [Inbound.stream 0 [1] true, .resetStream 1 0], (s.receive f).1 = true ∧
      (s.receive f).2.recvFinalSize = some 1 ∧ (s.receive f).2.recvHighWater = 3 := by
  decide

/-! ## After a reset -/

/-- A read returns neither data nor the end, and the receive state is one of the reset states. -/
def Silent (s : Stream) : Prop :=
  s.readContiguous.1 = ([], false) ∧ (s.recvState = .resetRecvd ∨ s.recvState = .resetRead)

theorem run_of_reset (hstate : s.recvState = .resetRecvd) (hchunks : s.recvChunks = [])
    (hfin : s.finReached = false) (calls : List RecvCall) :
    (Machine.run step { stream := s } calls).stream = s ∧ Silent s := by
  have hread : s.readContiguous = (([], false), s) := by
    rw [Stream.readContiguous, hchunks]
    simp only [Stream.markRead, hfin]
    rfl
  refine ⟨?_, congrArg Prod.fst hread, .inl hstate⟩
  refine Machine.run_induction (I := fun x : Session => x.stream = s) (fun x call h => ?_) rfl calls
  cases call with
  | deliver offset data fin =>
    have hignored : s.deliver offset data fin = (true, s) := if_pos (.inl hstate)
    rw [step, h, hignored]
  | readContiguous => rw [step, h, hread]

/-- After an accepted reset nothing is read any more, unless the final size of the reset is where the
read cursor stands. -/
theorem silent_after_reset_iff (s : Stream) (finalSize appError : Nat)
    (h : (s.resetRecvd finalSize appError).1 = true) :
    (∀ calls : List RecvCall, Silent (Machine.run step
        { stream := (s.resetRecvd finalSize appError).2 } calls).stream) ↔
      finalSize ≠ s.recvReadOffset := by
  have hreset := s.resetting finalSize appError
  generalize s.resetRecvd finalSize appError = r at h hreset ⊢
  cases hreset with
  | refused => cases h
  | accepted =>
    constructor
    · rintro hall rfl
      have hread := (hall []).1
      simp [Machine.run, Stream.readContiguous, finReached] at hread
    · intro hne calls
      have hfin : (some finalSize == some s.recvReadOffset) = false := by simpa using hne
      have hrun := run_of_reset (s := { s with
        recvFinalSize := some finalSize, recvHighWater := max s.recvHighWater finalSize,
        resetError := some appError, recvState := .resetRecvd, recvChunks := [] }) rfl rfl hfin calls
      exact hrun.1.symm ▸ hrun.2

/-- The reset comes before anything is read. -/
theorem silent_after_reset_unread :
    Silent (Machine.run step
      { stream := (resetRecvd { id := 0, recvLimit := 9, sendLimit := 0 } 5 0).2 }
      [.readContiguous, .deliver 0 [1] true, .readContiguous]).stream :=
  (silent_after_reset_iff { id := 0, recvLimit := 9, sendLimit := 0 } 5 0 (by decide)).2
    (by decide) _

/-- A stream that is reset where its reader stands reports a clean end. -/
theorem reset_at_cursor_reads_end :
    let s := (resetRecvd { id := 0, recvLimit := 9, sendLimit := 0 } 0 7)
    s.1 = true ∧ s.2.readContiguous.1 = ([], true) ∧ s.2.readContiguous.2.recvState = .dataRead := by
  decide

end Spaznet.Quic.Stream
