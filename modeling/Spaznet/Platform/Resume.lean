import Mathlib.Data.List.Basic
import Spaznet.Lib.Machine

/-!
# Resuming coroutines

A coroutine that ends resumes the one that awaits it on top of its own stack frame. From a depth of
32 on, `resume_with_depth_bound` leaves this to `drain_pending_resumes`, which a thread calls
whenever a task has returned. A posted callback may resume a coroutine too, and nothing is drained
after it.
-/

namespace Spaznet.Platform

open List

def kResumeDepthThreshold : Nat := 32

structure PendingResume where
  /-- A null handle is not resumed. -/
  handle : Option Nat
  cbToRelease : Option Nat
  deriving DecidableEq

namespace Resume

/-- What a thread is in the middle of. -/
inductive Frame where
  /-- `task.resume()` in a loop, or in `schedule` if there are no worker threads. -/
  | task
  /-- A posted callback that has resumed a coroutine. -/
  | callback
  /-- `handle.resume()`; the block is released when it returns. -/
  | resume (entry : PendingResume)
  /-- `drain_pending_resumes`, with the rest of the entries it has moved out. -/
  | drain (pending : List PendingResume)
  deriving DecidableEq

structure Thread where
  /-- The innermost frame first. -/
  stack : List Frame := []
  resumeDepth : Nat := 0
  pendingResumes : List PendingResume := []
  /-- What `resume_with_depth_bound` was called with. -/
  requested : List PendingResume := []
  completed : List PendingResume := []

def running : List Frame → Bool
  | [] | .drain _ :: _ => false
  | _ :: _ => true

def resumeWithDepthBound (entry : PendingResume) (t : Thread) : Thread :=
  if entry.handle = none then { t with completed := t.completed ++ [entry] }
  else if kResumeDepthThreshold ≤ t.resumeDepth then
    { t with pendingResumes := t.pendingResumes ++ [entry] }
  else { t with stack := .resume entry :: t.stack, resumeDepth := t.resumeDepth + 1 }

/-- The coroutine that runs is suspended or ends. -/
def leave (t : Thread) : Thread :=
  match t.stack with
  | .task :: rest => { t with stack := .drain [] :: rest }
  | .callback :: rest => { t with stack := rest }
  | .resume entry :: rest =>
    { t with
      stack := rest
      resumeDepth := t.resumeDepth - 1
      completed := t.completed ++ [entry] }
  | _ => t

/-- A turn of one of the two loops of `drain_pending_resumes`. -/
def drainPendingResumes (t : Thread) : Thread :=
  match t.stack with
  | .drain (entry :: pending) :: rest =>
    { t with stack := .resume entry :: .drain pending :: rest, resumeDepth := t.resumeDepth + 1 }
  | .drain [] :: rest =>
    if t.pendingResumes = [] then { t with stack := rest }
    else { t with stack := .drain t.pendingResumes :: rest, pendingResumes := [] }
  | _ => t

inductive Step where
  /-- A task is resumed, by the loop or because a coroutine has scheduled it. -/
  | start
  | callback
  | resume (entry : PendingResume)
  | leave
  | drain
  deriving DecidableEq

def step (t : Thread) : Step → Thread
  | .start => if t.stack = [] ∨ running t.stack then { t with stack := .task :: t.stack } else t
  | .callback => if t.stack = [] then { t with stack := [.callback] } else t
  | .resume entry =>
    if running t.stack then
      resumeWithDepthBound entry { t with requested := t.requested ++ [entry] }
    else t
  | .leave => leave t
  | .drain => drainPendingResumes t

/-! ## Accounts -/

/-- The requests that a frame has to see to. -/
def Frame.held : Frame → List PendingResume
  | .resume entry => [entry]
  | .drain pending => pending
  | _ => []

/-- The frames that `g_resume_depth` counts. -/
def resumes : List Frame → Nat
  | [] => 0
  | .resume _ :: stack => resumes stack + 1
  | _ :: stack => resumes stack

def bases : List Frame → Nat
  | [] => 0
  | .resume _ :: stack => bases stack
  | _ :: stack => bases stack + 1

/-- No handle is resumed at the threshold, except by a drain. -/
def Bounded : List Frame → Prop
  | [] => True
  | .resume _ :: stack =>
    Bounded stack ∧ 0 < bases stack ∧ resumes stack + 1 < kResumeDepthThreshold + bases stack
  | _ :: stack => Bounded stack

theorem resumes_add_bases (stack : List Frame) : resumes stack + bases stack = stack.length := by
  induction stack with
  | nil => rfl
  | cons frame stack ih => cases frame <;> simp only [resumes, bases, length_cons] <;> omega

theorem Bounded.resumes_lt (h : Bounded stack) :
    resumes stack < kResumeDepthThreshold + bases stack := by
  induction stack with
  | nil => decide
  | cons frame stack ih =>
    cases frame with
    | resume entry => exact h.2.2
    | task | callback | drain => exact Nat.lt_succ_of_lt (ih h)

theorem Bounded.bases_pos (h : Bounded stack) (hrunning : running stack = true) :
    0 < bases stack := by
  cases stack with
  | nil => cases hrunning
  | cons frame stack =>
    cases frame with
    | resume entry => exact h.2.1
    | task | callback | drain => exact Nat.succ_pos _

structure Sound (t : Thread) : Prop where
  depth : t.resumeDepth = resumes t.stack
  bounded : Bounded t.stack
  /-- A request is put off, held by a frame, or completed, and that once. -/
  accounts : ∀ entry, t.requested.count entry = t.completed.count entry +
    t.pendingResumes.count entry + (t.stack.flatMap Frame.held).count entry

variable {t : Thread}

theorem Sound.resumeWithDepthBound (h : Sound t) (entry : PendingResume)
    (hrunning : running t.stack = true) :
    Sound (resumeWithDepthBound entry { t with requested := t.requested ++ [entry] }) := by
  obtain ⟨hdepth, hbounded, haccounts⟩ := h
  unfold Resume.resumeWithDepthBound
  dsimp only
  split
  · refine ⟨hdepth, hbounded, fun e => ?_⟩
    simp only [count_append, haccounts e]
    omega
  split
  · refine ⟨hdepth, hbounded, fun e => ?_⟩
    simp only [count_append, haccounts e]
    omega
  next hlow =>
    have hbase := hbounded.bases_pos hrunning
    refine ⟨congrArg (· + 1) hdepth, ⟨hbounded, hbase, by omega⟩, fun e => ?_⟩
    simp only [count_append, flatMap_cons, Frame.held, haccounts e]
    omega

theorem Sound.step (h : Sound t) (a : Step) : Sound (step t a) := by
  obtain ⟨stack, depth, pending, requested, completed⟩ := t
  obtain ⟨hdepth, hbounded, haccounts⟩ := h
  cases a with
  | start =>
    simp only [Resume.step]
    split <;> exact ⟨hdepth, hbounded, haccounts⟩
  | callback =>
    cases stack <;> exact ⟨hdepth, hbounded, haccounts⟩
  | resume entry =>
    simp only [Resume.step]
    split
    next hrunning => exact resumeWithDepthBound ⟨hdepth, hbounded, haccounts⟩ entry hrunning
    · exact ⟨hdepth, hbounded, haccounts⟩
  | leave =>
    rcases stack with _ | ⟨_ | _ | entry | _, rest⟩
    case cons.resume =>
      refine ⟨congrArg (· - 1) hdepth, hbounded.1, fun e => (haccounts e).trans ?_⟩
      simp only [Resume.step, leave, count_append, flatMap_cons, Frame.held]
      omega
    all_goals exact ⟨hdepth, hbounded, haccounts⟩
  | drain =>
    rcases stack with _ | ⟨_ | _ | _ | ⟨_ | ⟨entry, left⟩⟩, rest⟩
    case cons.drain.nil =>
      simp only [Resume.step, drainPendingResumes]
      split
      · exact ⟨hdepth, hbounded, haccounts⟩
      · refine ⟨hdepth, hbounded, fun e => (haccounts e).trans ?_⟩
        simp only [flatMap_cons, Frame.held, count_append, count_nil]
        omega
    case cons.drain.cons =>
      -- the one resume that the depth does not keep back
      have hrest : Bounded rest := hbounded
      have hlt := hrest.resumes_lt
      exact ⟨congrArg (· + 1) hdepth, ⟨hrest, Nat.succ_pos _, Nat.succ_lt_succ hlt⟩, haccounts⟩
    all_goals exact ⟨hdepth, hbounded, haccounts⟩

theorem sound_run (steps : List Step) : Sound (Machine.run step {} steps) :=
  Machine.run_induction (fun _ a h => h.step a) ⟨rfl, trivial, fun _ => rfl⟩ steps

/-- **Bounded stack.** Beside two for every task or callback it is in the middle of, a thread has
fewer than 32 frames. There are several tasks only if `schedule` has no worker threads. -/
theorem length_stack_lt (steps : List Step) :
    (Machine.run step {} steps).stack.length <
      kResumeDepthThreshold + 2 * bases (Machine.run step {} steps).stack := by
  have hlt := (sound_run steps).bounded.resumes_lt
  have hlength := resumes_add_bases (Machine.run step {} steps).stack
  omega

/-! ## Continuations that are put off -/

/-- `drain_pending_resumes` is running, or will be called when the frame is left. -/
def Frame.drains : Frame → Bool
  | .task | .drain _ => true
  | _ => false

/-- The outermost frame drains; if there is none, nothing is put off. -/
def Drained (t : Thread) : Prop :=
  t.stack.getLast?.elim (t.pendingResumes = []) (Frame.drains · = true)

theorem Drained.step (h : Drained t) (ha : a ≠ .callback) : Drained (step t a) := by
  obtain ⟨stack, depth, pending, requested, completed⟩ := t
  cases a with
  | callback => exact absurd rfl ha
  | start | resume | leave | drain =>
    cases stack with
    | nil => simp_all [Drained, Resume.step, Frame.drains, running, leave, drainPendingResumes]
    | cons frame rest =>
      grind [Drained, Resume.step, Frame.drains, running, leave, drainPendingResumes,
        resumeWithDepthBound, getLast?_cons]

/-- **No continuation is lost or resumed twice.** When a thread that has run no callback is idle,
everything that it was to resume has been resumed and released, as often as it was requested. -/
theorem completed_of_idle (steps : List Step) (hsteps : .callback ∉ steps)
    (hidle : (Machine.run step {} steps).stack = []) :
    (Machine.run step {} steps).requested.Perm (Machine.run step {} steps).completed := by
  have hdrained : Drained (Machine.run step {} steps) :=
    foldlRecOn steps step rfl fun t h a ha => h.step fun heq => hsteps (heq ▸ ha)
  have haccounts := (sound_run steps).accounts
  rw [Drained, hidle] at hdrained
  rw [hidle, hdrained] at haccounts
  exact perm_iff_count.mpr haccounts

def continuation : PendingResume := { handle := some 1, cbToRelease := some 1 }

def chain (first : Step) : List Step :=
  first :: replicate 33 (.resume continuation) ++ replicate 33 .leave

theorem completed_chain :
    let t := Machine.run step {} (chain .start ++ [.drain, .drain, .leave, .drain])
    t.requested.length = 33 ∧ t.requested.Perm t.completed :=
  ⟨by decide +kernel, completed_of_idle _ (by decide) (by decide +kernel)⟩

/-- What was put off before stays so while only callbacks run. -/
structure Stranded (before : List PendingResume) (t : Thread) : Prop where
  callbacks : t.stack.any Frame.drains = false
  pending : before <+: t.pendingResumes

theorem Stranded.step (h : Stranded before t) (ha : a ≠ .start) : Stranded before (step t a) := by
  obtain ⟨stack, depth, pending, requested, completed⟩ := t
  obtain ⟨hcallbacks, hpending⟩ := h
  cases a with
  | start => exact absurd rfl ha
  | callback | resume | leave | drain =>
    cases stack with
    | nil => exact ⟨rfl, hpending⟩
    | cons frame rest =>
      grind [Stranded, Resume.step, Frame.drains, running, leave, drainPendingResumes,
        resumeWithDepthBound]

/-- **Callbacks strand continuations.** What an idle thread has put off is resumed by no number of
callbacks, only once it takes a task. -/
theorem pendingResumes_isPrefix_of_callbacks (t : Thread) (hidle : t.stack = []) (steps : List Step)
    (hsteps : .start ∉ steps) :
    t.pendingResumes <+: (Machine.run step t steps).pendingResumes := by
  have hstranded : Stranded t.pendingResumes (Machine.run step t steps) :=
    foldlRecOn steps step ⟨by rw [hidle]; rfl, prefix_rfl⟩ fun t h a ha =>
      h.step fun heq => hsteps (heq ▸ ha)
  exact hstranded.pending

theorem stranded_chain :
    let t := Machine.run step {} (chain .callback)
    t.pendingResumes = [continuation] ∧
      t.pendingResumes <+: (Machine.run step t (chain .callback)).pendingResumes :=
  ⟨by decide +kernel, pendingResumes_isPrefix_of_callbacks _ (by decide +kernel) _ (by decide)⟩

end Resume

end Spaznet.Platform
