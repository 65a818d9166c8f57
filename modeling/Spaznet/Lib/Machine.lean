import Mathlib.Data.List.Basic

/-!
# Runs of a transition function

A machine is a function `step : σ → α → σ`. `run` folds it over a list of actions and `AllSteps`
says that every action of a run meets a condition in the state it is taken in. An invariant is
proved once per step (`run_invariant`).
-/

namespace Spaznet.Machine

variable {σ : Type u} {α : Type v} (step : σ → α → σ)
variable {I : σ → Prop} {P Q : σ → α → Prop} {s : σ}

def run (s : σ) (as : List α) : σ := as.foldl step s

/-- Every action meets `P` in the state it is taken in. -/
def AllSteps (P : σ → α → Prop) : σ → List α → Prop
  | _, [] => True
  | s, a :: as => P s a ∧ AllSteps P (step s a) as

instance AllSteps.decidable (P : σ → α → Prop) [∀ s a, Decidable (P s a)] :
    ∀ s as, Decidable (AllSteps step P s as)
  | _, [] => isTrue trivial
  | s, a :: as =>
    have := AllSteps.decidable P (step s a) as
    inferInstanceAs (Decidable (P s a ∧ AllSteps step P (step s a) as))

variable {step}

theorem run_cons (s : σ) (a : α) (as : List α) :
    run step s (a :: as) = run step (step s a) as := rfl

theorem run_append (s : σ) (as bs : List α) :
    run step s (as ++ bs) = run step (run step s as) bs := List.foldl_append

@[simp] theorem allSteps_cons :
    AllSteps step P s (a :: as) ↔ P s a ∧ AllSteps step P (step s a) as := Iff.rfl

theorem allSteps_append :
    AllSteps step P s (as ++ bs) ↔ AllSteps step P s as ∧ AllSteps step P (run step s as) bs := by
  induction as generalizing s with
  | nil => exact ⟨fun h => ⟨trivial, h⟩, And.right⟩
  | cons a as ih => rw [List.cons_append, allSteps_cons, allSteps_cons, ih, and_assoc, run_cons]

theorem AllSteps.and (hP : AllSteps step P s as) (hQ : AllSteps step Q s as) :
    AllSteps step (fun s a => P s a ∧ Q s a) s as := by
  induction as generalizing s with
  | nil => trivial
  | cons a as ih => exact ⟨⟨hP.1, hQ.1⟩, ih hP.2 hQ.2⟩

/-- **Invariant rule.** What every admissible step preserves holds at the end of an admissible
run. -/
theorem run_invariant (hstep : ∀ s a, I s → P s a → I (step s a)) (hs : I s)
    (H : AllSteps step P s as) : I (run step s as) := by
  induction as generalizing s with
  | nil => exact hs
  | cons a as ih => exact ih (hstep _ _ hs H.1) H.2

/-- What every step preserves holds at the end of every run. -/
theorem run_induction (hstep : ∀ s a, I s → I (step s a)) {s : σ} (hs : I s) (as : List α) :
    I (run step s as) :=
  List.foldlRecOn as step hs fun s h a _ => hstep s a h

/-- What every step leaves alone, a run leaves alone. -/
theorem foldl_frame {p : σ → β} (hf : ∀ s a, p (f s a) = p s) (s : σ)
    (as : List α) : p (as.foldl f s) = p s :=
  run_induction (I := fun t => p t = p s) (fun t a h => (hf t a).trans h) rfl as

/-- What follows from an invariant holds at every step of an admissible run. -/
theorem AllSteps.of_invariant (hstep : ∀ s a, I s → P s a → I (step s a))
    (hQ : ∀ s a, I s → P s a → Q s a) (hs : I s) (H : AllSteps step P s as) :
    AllSteps step Q s as := by
  induction as generalizing s with
  | nil => trivial
  | cons a as ih => exact ⟨hQ s a hs H.1, ih (hstep s a hs H.1) H.2⟩

theorem allSteps_of_forall (h : ∀ s a, P s a) (s : σ) (as : List α) : AllSteps step P s as := by
  induction as generalizing s with
  | nil => trivial
  | cons a as ih => exact ⟨h s a, ih (step s a)⟩

/-- **Congruence rule.** Along a run whose actions meet `A`, two conditions that agree wherever an
invariant holds come to the same, if steps that meet them keep the invariant. -/
theorem allSteps_congr {A P Q : σ → α → Prop} (hiff : ∀ s a, I s → A s a → (P s a ↔ Q s a))
    (hstep : ∀ s a, I s → A s a → P s a → Q s a → I (step s a)) (hs : I s)
    (hA : AllSteps step A s as) : AllSteps step P s as ↔ AllSteps step Q s as := by
  induction as generalizing s with
  | nil => exact Iff.rfl
  | cons a as ih =>
    have hhead := hiff s a hs hA.1
    rw [allSteps_cons, hhead]
    exact and_congr_right fun hQ => ih (hstep s a hs hA.1 (hhead.mpr hQ) hQ) hA.2

end Spaznet.Machine
