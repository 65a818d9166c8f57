import Spaznet.Lib.Machine

/-!
# The write gate of a connection

`WriteGate` and the coroutines that write through it. The lock section of `await_suspend` and that of
`release` are one action each. A coroutine that is handed the gate holds it from then on, whenever
the scheduler resumes it.
-/

namespace Spaznet.WebSocket

open List

structure WriteGate (ι : Type) where
  held : Bool := false
  waiters : List ι := []
  /-- Whose `acquire` is done and who has not called `release` since. -/
  holders : List ι := []
  /-- Who was suspended, and who was handed the gate, in order. -/
  suspended : List ι := []
  granted : List ι := []

namespace WriteGate

variable {ι : Type} {gate : WriteGate ι}

/-- `await_suspend`. -/
def acquire (handle : ι) (gate : WriteGate ι) : WriteGate ι :=
  if !gate.held then { gate with held := true, holders := gate.holders ++ [handle] }
  else { gate with waiters := gate.waiters ++ [handle], suspended := gate.suspended ++ [handle] }

structure Fair (gate : WriteGate ι) : Prop where
  single : gate.holders.length = if gate.held then 1 else 0
  order : gate.suspended = gate.granted ++ gate.waiters
  awaited : gate.held = false → gate.waiters = []

theorem Fair.acquire (h : gate.Fair) (handle : ι) : (gate.acquire handle).Fair := by
  obtain ⟨hsingle, horder, hawaited⟩ := h
  unfold WriteGate.acquire
  cases hheld : gate.held with
  | false =>
    rw [hheld] at hsingle
    exact ⟨by simpa using hsingle, horder, nofun⟩
  | true =>
    rw [hheld] at hsingle
    exact ⟨hsingle, (congrArg (· ++ [handle]) horder).trans (append_assoc ..), nofun⟩

variable [DecidableEq ι]

def release (handle : ι) (gate : WriteGate ι) : WriteGate ι :=
  let holders := gate.holders.erase handle
  match gate.waiters with
  | next :: waiters =>
    { gate with waiters, holders := holders ++ [next], granted := gate.granted ++ [next] }
  | [] => { gate with held := false, holders }

inductive Action (ι : Type) where
  | acquire (handle : ι)
  | release (handle : ι)

/-- A suspended coroutine does nothing, and only who has acquired the gate releases it. -/
def step (gate : WriteGate ι) : Action ι → WriteGate ι
  | .acquire handle => if handle ∈ gate.waiters then gate else gate.acquire handle
  | .release handle =>
    if handle ∈ gate.holders ∧ handle ∉ gate.waiters then gate.release handle else gate

theorem Fair.release (h : gate.Fair) (hhandle : handle ∈ gate.holders) :
    (gate.release handle).Fair := by
  obtain ⟨hsingle, horder, hawaited⟩ := h
  cases hheld : gate.held with
  | false =>
    rw [hheld] at hsingle
    rw [length_eq_zero_iff.mp hsingle] at hhandle
    cases hhandle
  | true =>
    rw [hheld] at hsingle
    obtain ⟨holder, hholders⟩ := length_eq_one_iff.mp hsingle
    obtain rfl : handle = holder := by simpa [hholders] using hhandle
    unfold WriteGate.release
    split
    next next waiters hwaiters =>
      exact ⟨by simp [hholders, hheld], by simp [horder, hwaiters],
        fun hfree => nomatch hheld.symm.trans hfree⟩
    next hwaiters => exact ⟨by simp [hholders], by simp [horder, hwaiters], fun _ => hwaiters⟩

theorem Fair.step (h : gate.Fair) (action : Action ι) : (gate.step action).Fair := by
  cases action with
  | acquire handle =>
    unfold WriteGate.step
    dsimp only
    split
    · exact h
    · exact h.acquire handle
  | release handle =>
    unfold WriteGate.step
    dsimp only
    split
    next hhandle => exact h.release hhandle.1
    · exact h

end WriteGate

end Spaznet.WebSocket
