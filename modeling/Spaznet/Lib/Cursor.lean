import Mathlib.Data.List.Basic

/-!
# Reading a buffer at an offset

A reader gets the whole buffer and an offset, and returns a value with the offset behind it.
`Remaining buf off t` says what such a reader has still in front of it, and `Reads r e v` that `r`
reads `v` off the encoding `e` wherever it meets it and whatever follows.
-/

namespace Spaznet

open List

variable {α β : Type} {buf e e' t : List α} {off : Nat}

/-- The offset is inside the buffer or at its end, and `t` is what follows it. -/
def Remaining (buf : List α) (off : Nat) (t : List α) : Prop :=
  ∃ pre, buf = pre ++ t ∧ off = pre.length

namespace Remaining

theorem start (buf : List α) : Remaining buf 0 buf := ⟨[], rfl, rfl⟩

theorem advance (h : Remaining buf off (e ++ t)) : Remaining buf (off + e.length) t := by
  obtain ⟨pre, rfl, rfl⟩ := h
  exact ⟨pre ++ e, (append_assoc ..).symm, length_append.symm⟩

theorem length_eq (h : Remaining buf off t) : buf.length = off + t.length := by
  obtain ⟨pre, rfl, rfl⟩ := h
  exact length_append

theorem drop_eq (h : Remaining buf off t) : buf.drop off = t := by
  obtain ⟨pre, rfl, rfl⟩ := h
  exact drop_left

theorem getElem?_eq (h : Remaining buf off (b :: t)) : buf[off]? = some b := by
  obtain ⟨pre, rfl, rfl⟩ := h
  simp

theorem next (h : Remaining buf off (b :: t)) : Remaining buf (off + 1) t :=
  h.advance (e := [b])

theorem take_eq (h : Remaining buf off (e ++ t)) : (buf.drop off).take e.length = e := by
  rw [h.drop_eq]
  exact take_left

end Remaining

/-- Wherever `e` stands in front of it, `r` reads `v` and stops right behind `e`. -/
def Reads (r : List α → Nat → Option (β × Nat)) (e : List α) (v : β) : Prop :=
  ∀ ⦃buf off t⦄, Remaining buf off (e ++ t) → r buf off = some (v, off + e.length)

end Spaznet
