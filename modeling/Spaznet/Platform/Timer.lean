import Mathlib.Data.Finset.Basic
import Mathlib.Data.List.Sort
import Spaznet.Lib.Machine

/-!
# Timers of an IOContext

A due timer moves from the heap to `ready_entries`, from there to a queue of callbacks, and starts
when it is taken from the queue. `cancel_timer` marks its id, and a marked entry is dropped when it
reaches the top of the heap. A cancelled timer therefore starts at most as often as it was on its
way when it was cancelled.
-/

namespace Spaznet.Platform

open List

/-- Nanoseconds. -/
def kMillisecond : Int := 1000000

structure TimerEntry where
  id : Nat
  nextFire : Int
  interval : Int
  repeats : Bool
  /-- The entry resumes a coroutine; the others have a callback. -/
  task : Bool
  deriving DecidableEq

structure Timers where
  /-- A counter of 64 bits in the code, which no run brings round. -/
  nextTimerId : Nat := 1
  /-- The heap, its top first. -/
  timers : List TimerEntry := []
  cancelledTimers : Finset Nat := ∅
  readyEntries : List TimerEntry := []
  queued : List Nat := []
  started : List Nat := []
  deriving DecidableEq

namespace Timers

def push (entry : TimerEntry) (timers : List TimerEntry) : List TimerEntry :=
  timers.orderedInsert (·.nextFire ≤ ·.nextFire) entry

/-- `add_timer` and `add_timer_callback`, at the time `now`. -/
def addTimer (now firstFire interval : Int) (repeats task : Bool) (s : Timers) : Timers :=
  let entry : TimerEntry :=
    { id := s.nextTimerId
      nextFire := if firstFire ≤ now then now + kMillisecond else firstFire
      interval := if repeats ∧ interval ≤ 0 then kMillisecond else interval
      repeats, task }
  { s with nextTimerId := s.nextTimerId + 1, timers := push entry s.timers }

def cancelTimer (id : Nat) (s : Timers) : Timers :=
  { s with cancelledTimers := insert id s.cancelledTimers }

/-- A cancelled entry leaves the heap together with its mark. -/
def dropTop (entry : TimerEntry) (rest : List TimerEntry) (s : Timers) : Timers :=
  { s with timers := rest, cancelledTimers := s.cancelledTimers.erase entry.id }

/-- One turn of the loop of `process_timers` over the heap. -/
def collectTop (now : Int) (s : Timers) : Timers :=
  match s.timers with
  | [] => s
  | entry :: rest =>
    if entry.id ∈ s.cancelledTimers then s.dropTop entry rest
    else if entry.nextFire > now then s
    else { s with
      timers := if entry.repeats then push { entry with nextFire := now + entry.interval } rest
        else rest
      readyEntries := s.readyEntries ++ [entry] }

/-- One turn of the loop of `compute_wait_timeout_ms`. -/
def purgeTop (s : Timers) : Timers :=
  match s.timers with
  | [] => s
  | entry :: rest => if entry.id ∈ s.cancelledTimers then s.dropTop entry rest else s

/-- One turn of the loop of `process_timers` over `ready_entries`. Without worker threads, `schedule`
resumes a task at once. -/
def dispatch (threaded : Bool) (s : Timers) : Timers :=
  match s.readyEntries with
  | [] => s
  | entry :: rest =>
    if entry.task && !threaded then
      { s with readyEntries := rest, started := s.started ++ [entry.id] }
    else { s with readyEntries := rest, queued := s.queued ++ [entry.id] }

def start (i : Nat) (s : Timers) : Timers :=
  match s.queued[i]? with
  | none => s
  | some id => { s with queued := s.queued.eraseIdx i, started := s.started ++ [id] }

/-- The steps of all threads. The code holds its lock over all turns of a loop. -/
inductive Step where
  | add (now firstFire interval : Int) (repeats task : Bool)
  | cancel (id : Nat)
  | collect (now : Int)
  | purge
  | dispatch (threaded : Bool)
  /-- The context stops: what is left of `ready_entries` is not dispatched. -/
  | abandon
  | start (i : Nat)

def step (s : Timers) : Step → Timers
  | .add now firstFire interval repeats task => s.addTimer now firstFire interval repeats task
  | .cancel id => s.cancelTimer id
  | .collect now => s.collectTop now
  | .purge => s.purgeTop
  | .dispatch threaded => s.dispatch threaded
  | .abandon => { s with readyEntries := [] }
  | .start i => s.start i

def ids (s : Timers) : List Nat := s.timers.map TimerEntry.id

/-- How often the timer was taken from the heap and has not started yet. -/
def inFlight (id : Nat) (s : Timers) : Nat :=
  (s.readyEntries.map TimerEntry.id).count id + s.queued.count id

theorem perm_push (entry : TimerEntry) (timers : List TimerEntry) :
    ((push entry timers).map TimerEntry.id).Perm (entry.id :: timers.map TimerEntry.id) :=
  (perm_orderedInsert _ entry timers).map _

inductive HeapStep (s : Timers) : Timers → Prop where
  | keep (hnext : s'.nextTimerId = s.nextTimerId) (hids : s'.ids.Perm s.ids)
      (hmarks : s.cancelledTimers ⊆ s'.cancelledTimers) : HeapStep s s'
  | add (hnext : s'.nextTimerId = s.nextTimerId + 1) (hids : s'.ids.Perm (s.nextTimerId :: s.ids))
      (hmarks : s'.cancelledTimers = s.cancelledTimers) : HeapStep s s'
  | pop (top : Nat) (hnext : s'.nextTimerId = s.nextTimerId) (hids : s.ids = top :: s'.ids)
      (hmarks : s'.cancelledTimers = s.cancelledTimers ∨
        s'.cancelledTimers = s.cancelledTimers.erase top) : HeapStep s s'

variable {s : Timers} {id : Nat}

theorem heapStep_dropTop (h : s.timers = entry :: rest) : HeapStep s (s.dropTop entry rest) :=
  .pop _ rfl (by rw [ids, h]; rfl) (.inr rfl)

theorem heapStep_step (s : Timers) (a : Step) : HeapStep s (step s a) := by
  have hsame : HeapStep s s := .keep rfl (.refl _) subset_rfl
  cases a with
  | add now firstFire interval repeats task => exact .add rfl (perm_push _ _) rfl
  | cancel id => exact .keep rfl (.refl _) (Finset.subset_insert _ _)
  | collect now =>
    simp only [step, collectTop]
    split
    · exact hsame
    next entry rest htimers =>
      split
      · exact heapStep_dropTop htimers
      split
      · exact hsame
      cases hrepeats : entry.repeats with
      | true =>
        refine .keep rfl ?_ subset_rfl
        rw [ids, ids, htimers]
        exact perm_push _ rest
      | false => exact .pop _ rfl (by rw [ids, htimers]; rfl) (.inl rfl)
  | purge =>
    simp only [step, purgeTop]
    split
    · exact hsame
    next entry rest htimers =>
      split
      · exact heapStep_dropTop htimers
      · exact hsame
  | dispatch threaded =>
    simp only [step, dispatch]
    repeat' split
    all_goals exact .keep rfl (.refl _) subset_rfl
  | abandon => exact .keep rfl (.refl _) subset_rfl
  | start i =>
    simp only [step, start]
    split <;> exact .keep rfl (.refl _) subset_rfl

/-- The ids of the heap are distinct and were given out. -/
structure Distinct (s : Timers) : Prop where
  nodup : s.ids.Nodup
  below : ∀ id ∈ s.ids, id < s.nextTimerId

theorem Distinct.step (h : Distinct s) (a : Step) : Distinct (step s a) := by
  cases heapStep_step s a with
  | keep hnext hids =>
    exact ⟨hids.nodup_iff.mpr h.nodup, by simpa [hids.mem_iff, hnext] using h.below⟩
  | add hnext hids =>
    refine ⟨hids.nodup_iff.mpr (nodup_cons.mpr ⟨fun hmem => ?_, h.nodup⟩), fun id hid => ?_⟩
    · exact Nat.lt_irrefl _ (h.below _ hmem)
    · rw [hnext]
      rcases mem_cons.mp (hids.mem_iff.mp hid) with rfl | hid
      · exact Nat.lt_succ_self _
      · exact Nat.lt_succ_of_lt (h.below id hid)
  | pop top hnext hids =>
    have hnodup := h.nodup
    have hbelow := h.below
    rw [hids] at hnodup hbelow
    exact ⟨hnodup.of_cons, fun id hid => hnext ▸ hbelow id (mem_cons_of_mem _ hid)⟩

/-- The timer is marked, or it has left the heap for good. -/
def Cancelled (id : Nat) (s : Timers) : Prop :=
  id ∈ s.cancelledTimers ∨ id < s.nextTimerId ∧ id ∉ s.ids

theorem Cancelled.step (h : Cancelled id s) (hs : Distinct s) (a : Step) :
    Cancelled id (step s a) := by
  cases heapStep_step s a with
  | keep hnext hids hmarks =>
    exact h.imp (fun hid => hmarks hid) fun hid =>
      ⟨hnext ▸ hid.1, fun hmem => hid.2 (hids.mem_iff.mp hmem)⟩
  | add hnext hids hmarks =>
    refine h.imp (fun hid => hmarks ▸ hid) fun hid =>
      ⟨hnext ▸ Nat.lt_succ_of_lt hid.1, fun hmem => ?_⟩
    rcases mem_cons.mp (hids.mem_iff.mp hmem) with heq | hmem
    · exact Nat.ne_of_lt hid.1 heq
    · exact hid.2 hmem
  | pop top hnext hids hmarks =>
    have hnodup := hs.nodup
    have hbelow := hs.below
    rw [hids] at hnodup hbelow
    by_cases htop : id = top
    · subst htop
      exact .inr ⟨hnext ▸ hbelow id mem_cons_self, (nodup_cons.mp hnodup).1⟩
    rcases h with hid | ⟨hlt, hid⟩
    · left
      rcases hmarks with hmarks | hmarks <;> rw [hmarks]
      · exact hid
      · exact Finset.mem_erase.mpr ⟨htop, hid⟩
    · rw [hids] at hid
      exact .inr ⟨hnext ▸ hlt, fun hmem => hid (mem_cons_of_mem _ hmem)⟩

/-- A cancelled timer is not taken from the heap. -/
theorem started_step_le (h : Cancelled id s) (a : Step) :
    (step s a).started.count id + (step s a).inFlight id ≤ s.started.count id + s.inFlight id := by
  cases a with
  | add | cancel => exact le_rfl
  | collect now =>
    simp only [step, collectTop]
    split
    · exact le_rfl
    next entry rest htimers =>
      split
      · exact le_rfl
      next hmark =>
        have hne : entry.id ≠ id := by
          rintro rfl
          exact h.elim hmark fun hid => hid.2 (by rw [ids, htimers]; exact mem_cons_self)
        split
        · exact le_rfl
        · simp [inFlight, count_append, hne]
  | purge =>
    simp only [step, purgeTop]
    repeat' split
    all_goals exact le_rfl
  | dispatch threaded =>
    simp only [step, dispatch]
    split
    · exact le_rfl
    next entry rest hready =>
      split <;> simp [inFlight, hready, count_append, count_cons] <;> omega
  | abandon => simp [step, inFlight]
  | start i =>
    simp only [step, start]
    split
    · exact le_rfl
    next id' hid' =>
      obtain ⟨hi, rfl⟩ := List.getElem?_eq_some_iff.mp hid'
      have hcount := (getElem_cons_eraseIdx_perm hi).count_eq id
      rw [count_cons] at hcount
      simp only [inFlight, count_append, count_singleton]
      omega

/-- **Cancellation.** After `cancel_timer` the timer starts at most as often as it was on its way
then, and it keeps its mark as long as it is in the heap. -/
theorem cancel_stops (before after : List Step) (id : Nat) :
    (Machine.run step {} (before ++ .cancel id :: after)).started.count id ≤
        (Machine.run step {} before).started.count id + (Machine.run step {} before).inFlight id ∧
      (id ∈ (Machine.run step {} (before ++ .cancel id :: after)).ids →
        id ∈ (Machine.run step {} (before ++ .cancel id :: after)).cancelledTimers) := by
  have hdistinct (as : List Step) : Distinct (Machine.run step {} as) :=
    Machine.run_induction (fun _ a h => h.step a) ⟨.nil, nofun⟩ as
  rw [Machine.run_append, Machine.run_cons]
  have hbefore := hdistinct before
  generalize Machine.run step {} before = s at hbefore ⊢
  obtain ⟨-, hcancelled, hle⟩ := Machine.run_induction
    (I := fun t => Distinct t ∧ Cancelled id t ∧
      t.started.count id + t.inFlight id ≤ s.started.count id + s.inFlight id)
    (fun t a h => ⟨h.1.step a, h.2.1.step h.1 a, (started_step_le h.2.1 a).trans h.2.2⟩)
    ⟨hbefore.step (.cancel id), .inl (Finset.mem_insert_self _ _), le_rfl⟩ after
  exact ⟨by omega, fun hmem => hcancelled.resolve_right fun hid => hid.2 hmem⟩

def lateCancel : List Step := [.add 0 1 0 false false, .collect 1, .dispatch true, .cancel 1]

/-- It starts after that, and its id stays in `cancelled_timers_`. -/
theorem cancelled_timer_starts : (Machine.run step {} lateCancel).started = [] ∧
    (Machine.run step {} (lateCancel ++ [.start 0])).started = [1] ∧
    (Machine.run step {} (lateCancel ++ [.start 0])).cancelledTimers = {1} ∧
    (Machine.run step {} (lateCancel ++ [.start 0])).ids = [] := by
  decide

end Timers

end Spaznet.Platform
