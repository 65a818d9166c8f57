import Spaznet.Lib.Machine

/-!
# Response writers

The state that the copies of a `ResponseWriter` share, and the threads that use it. A lock section is
one action. A thread that leaves its section with the callback in hand calls it some time later.
-/

namespace Spaznet.Reactor

open List

structure ResponseWriter (ρ κ : Type) where
  completed : Bool := false
  onReady : Option κ := none
  /-- The responses of the calls of `complete`, in the order in which they took the lock. -/
  calls : List ρ := []
  registered : Option κ := none
  /-- The callbacks that threads are about to call. -/
  leaving : List κ := []
  /-- The runs of `deliver` and of callbacks. -/
  events : List (ρ ⊕ κ) := []

namespace ResponseWriter

variable {ρ κ : Type} {w : ResponseWriter ρ κ}

inductive Action (ρ κ : Type) where
  | complete (response : ρ)
  | isCompleted
  | onReady (callback : κ)
  /-- The `n`-th of the threads that left with a callback calls it. -/
  | call (n : Nat)

/-- A writer gets one callback at most. -/
def step (w : ResponseWriter ρ κ) : Action ρ κ → ResponseWriter ρ κ
  | .complete response =>
    if w.completed then { w with calls := w.calls ++ [response] }
    else { w with
      completed := true
      onReady := none
      calls := w.calls ++ [response]
      leaving := w.leaving ++ w.onReady.toList
      events := w.events ++ [.inl response] }
  | .isCompleted => w
  | .onReady callback =>
    if w.registered.isSome then w
    else if w.completed then
      { w with registered := some callback, leaving := w.leaving ++ [callback] }
    else { w with registered := some callback, onReady := some callback }
  | .call n => match w.leaving[n]? with
    | some callback =>
      { w with leaving := w.leaving.eraseIdx n, events := w.events ++ [.inr callback] }
    | none => w

inductive Once (w : ResponseWriter ρ κ) : Prop where
  | waits (hcompleted : w.completed = false) (hcalls : w.calls = []) (hevents : w.events = [])
      (hready : w.onReady = w.registered) (hleaving : w.leaving = [])
  | done (called : List κ) (hcompleted : w.completed = true) (hcalls : w.calls = first :: rest)
      (hevents : w.events = .inl first :: called.map .inr)
      (hcalled : called ++ w.leaving = w.registered.toList)

theorem Once.complete (h : Once w) (response : ρ) : Once (w.step (.complete response)) := by
  unfold step
  dsimp only
  cases h with
  | waits hcompleted hcalls hevents hready hleaving =>
    rw [hcompleted, hcalls, hevents, hready, hleaving]
    exact .done [] rfl rfl rfl rfl
  | done called hcompleted hcalls hevents hcalled =>
    rw [if_pos hcompleted, hcalls]
    exact .done called hcompleted rfl hevents hcalled

theorem Once.onReady (h : Once w) (callback : κ) : Once (w.step (.onReady callback)) := by
  unfold step
  dsimp only
  cases hregistered : w.registered with
  | some => exact h
  | none =>
    cases h with
    | waits hcompleted hcalls hevents hready hleaving =>
      rw [hcompleted]
      exact .waits rfl hcalls hevents rfl hleaving
    | done called hcompleted hcalls hevents hcalled =>
      rw [hregistered] at hcalled
      obtain ⟨rfl, hleaving⟩ := append_eq_nil_iff.mp hcalled
      rw [hcompleted, hleaving]
      exact .done [] rfl hcalls hevents rfl

theorem Once.call (h : Once w) (n : Nat) : Once (w.step (.call n)) := by
  unfold step
  dsimp only
  split
  next callback hn =>
    cases h with
    | waits hcompleted hcalls hevents hready hleaving =>
      rw [hleaving] at hn
      cases hn
    | done called hcompleted hcalls hevents hcalled =>
      have hlt := (List.getElem?_eq_some_iff.mp hn).1
      cases hregistered : w.registered with
      | none => simp_all
      | some registered =>
        rw [hregistered] at hcalled
        rcases append_eq_singleton_iff.mp hcalled with ⟨rfl, hleaving⟩ | ⟨-, hleaving⟩
        · obtain rfl : n = 0 := by simpa [hleaving] using hlt
          obtain rfl : registered = callback := by simpa [hleaving] using hn
          refine .done [registered] hcompleted hcalls ?_ ?_
          · simp [hevents]
          · simp [hleaving]
        · simp [hleaving] at hlt
  · exact h

theorem Once.step (h : Once w) : (action : Action ρ κ) → Once (w.step action)
  | .complete response => h.complete response
  | .isCompleted => h
  | .onReady callback => h.onReady callback
  | .call n => h.call n

end ResponseWriter

end Spaznet.Reactor
