import Spaznet.Lib.Intake

/-!
# Decoders

A decoder takes a value off the front of a list and returns what is behind it. It is local if what
it reads does not depend on what follows. Local decoders that use up something are the readers of
a stream.
-/

namespace Spaznet

open List Option

variable {α : Type u} {β : Type v} {γ : Type w}

/-- Wherever the part that was used up stands in front, the same value is read off it. -/
def Local (d : List α → Option (β × List α)) : Prop :=
  ∀ ⦃xs v rest⦄, d xs = some (v, rest) →
    ∃ used, xs = used ++ rest ∧ ∀ more, d (used ++ more) = some (v, more)

def Progresses (d : List α → Option (β × List α)) : Prop :=
  ∀ ⦃xs v rest⦄, d xs = some (v, rest) → rest.length < xs.length

def takeExactly (n : Nat) (xs : List α) : Option (List α × List α) :=
  if n ≤ xs.length then some (xs.take n, xs.drop n) else none

theorem local_takeExactly (n : Nat) : Local (takeExactly (α := α) n) := by
  intro xs v rest h
  unfold takeExactly at h
  split at h
  next hle =>
    cases h
    refine ⟨xs.take n, (take_append_drop n xs).symm, fun more => ?_⟩
    have hlen : (xs.take n).length = n := length_take_of_le hle
    rw [takeExactly, length_append, hlen, if_pos (Nat.le_add_right _ _), take_left' hlen,
      drop_left' hlen]
  · cases h

theorem local_some (v : β) : Local fun xs : List α => some (v, xs) := by
  intro xs v' rest h
  cases h
  exact ⟨[], rfl, fun _ => rfl⟩

theorem local_none : Local fun _ : List α => (none : Option (β × List α)) := nofun

theorem local_option (o : Option β) : Local fun xs : List α => o.map (·, xs) := by
  cases o with
  | none => exact local_none
  | some v => exact local_some v

theorem progresses_none : Progresses fun _ : List α => (none : Option (β × List α)) := nofun

namespace Local

variable {d : List α → Option (β × List α)} {f : β → List α → Option (γ × List α)}

/-- What arrives behind is left behind. -/
theorem append (hd : Local d) (h : d xs = some (v, rest)) (more : List α) :
    d (xs ++ more) = some (v, rest ++ more) := by
  obtain ⟨used, rfl, hused⟩ := hd h
  rw [append_assoc]
  exact hused (rest ++ more)

theorem bind (hd : Local d) (hf : ∀ v, Local (f v)) :
    Local fun xs => (d xs).bind fun p => f p.1 p.2 := by
  intro xs v rest h
  obtain ⟨⟨v', rest'⟩, hv', hv⟩ := bind_eq_some_iff.mp h
  obtain ⟨used, rfl, hused⟩ := hd hv'
  obtain ⟨used', rfl, hused'⟩ := hf v' hv
  refine ⟨used ++ used', (append_assoc ..).symm, fun more => ?_⟩
  dsimp only
  rw [append_assoc, hused]
  exact hused' more

theorem map (hd : Local d) (g : β → γ) : Local fun xs => (d xs).map fun p => (g p.1, p.2) := by
  intro xs v rest h
  obtain ⟨⟨v', rest'⟩, hv', hv⟩ := map_eq_some_iff.mp h
  cases hv
  obtain ⟨used, rfl, hused⟩ := hd hv'
  refine ⟨used, rfl, fun more => ?_⟩
  dsimp only
  rw [hused, map_some]

theorem peek {d : α → List α → Option (β × List α)} (hd : ∀ x, Local (d x))
    (hprogress : ∀ x, Progresses (d x)) : Local fun xs => xs.head?.bind fun x => d x xs := by
  intro xs v rest h
  cases xs with
  | nil => cases h
  | cons x xs =>
    have hx : d x (x :: xs) = some (v, rest) := h
    obtain ⟨used, hsplit, hused⟩ := hd x hx
    cases used with
    | nil =>
      rw [hsplit] at hx
      exact absurd (hprogress x hx) (Nat.lt_irrefl _)
    | cons y used =>
      obtain ⟨rfl, -⟩ := List.cons.inj hsplit
      exact ⟨x :: used, hsplit, hused⟩

def intake (hd : Local d) (hprogress : Progresses d) : Intake α (List α) β where
  next? := d
  push xs r := r ++ xs
  bound := List.length
  bound_lt h := hprogress h
  push_append xs ys r := (append_assoc r xs ys).symm
  next?_push xs h := hd.append h xs

end Local

namespace Progresses

variable {d : List α → Option (β × List α)} {f : β → List α → Option (γ × List α)}

theorem bind (hd : Progresses d) (hf : ∀ v, Local (f v)) :
    Progresses fun xs => (d xs).bind fun p => f p.1 p.2 := by
  intro xs v rest h
  obtain ⟨⟨v', rest'⟩, hv', hv⟩ := bind_eq_some_iff.mp h
  obtain ⟨used, hsplit, -⟩ := hf v' hv
  have hlt : rest'.length < xs.length := hd hv'
  have hle : rest'.length = used.length + rest.length := by
    rw [← length_append, ← hsplit]
  omega

theorem map (hd : Progresses d) (g : β → γ) :
    Progresses fun xs => (d xs).map fun p => (g p.1, p.2) := by
  intro xs v rest h
  obtain ⟨⟨v', rest'⟩, hv', hv⟩ := map_eq_some_iff.mp h
  cases hv
  exact hd hv'

theorem peek {d : α → List α → Option (β × List α)} (hd : ∀ x, Progresses (d x)) :
    Progresses fun xs => xs.head?.bind fun x => d x xs := by
  intro xs v rest h
  cases xs with
  | nil => cases h
  | cons x xs => exact hd x h

end Progresses

end Spaznet
