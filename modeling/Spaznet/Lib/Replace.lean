import Mathlib.Algebra.BigOperators.Group.List.Basic
import Mathlib.Algebra.Order.Ring.Nat

/-!
# Replacing an element of a list

What `List.set` does to images, counts and sums, in terms of the element that was there.
-/

namespace Spaznet.Replace

open List

variable {α : Type u} {β : Type v} {as : List α} {old new : α}

/-- An image does not notice a change that it does not see. -/
theorem map_set_eq (f : α → β) (hn : as[n]? = some old) (h : f new = f old) :
    (as.set n new).map f = as.map f := by
  obtain ⟨hlt, rfl⟩ := List.getElem?_eq_some_iff.mp hn
  have hlt' : n < (as.map f).length := by rwa [length_map]
  have hget : (as.map f)[n] = f new := by rw [getElem_map, h]
  rw [map_set, ← hget, set_getElem_self]

theorem countP_set_succ (hn : as[n]? = some old) (hold : p old = true)
    (hnew : p new = false) : (as.set n new).countP p + 1 = as.countP p := by
  obtain ⟨hlt, rfl⟩ := List.getElem?_eq_some_iff.mp hn
  have hpos : 0 < as.countP p := countP_pos_iff.mpr ⟨_, getElem_mem hlt, hold⟩
  rw [countP_set hlt, if_pos hold, hnew, if_neg Bool.false_ne_true]
  omega

theorem countP_set_le (as : List α) (n : Nat) (hnew : p new = false) :
    (as.set n new).countP p ≤ as.countP p := by
  by_cases hn : n < as.length
  · rw [countP_set hn, hnew]
    exact Nat.sub_le _ _
  · rw [set_eq_of_length_le (Nat.not_lt.mp hn)]

/-- A sum is that of the others and a summand that is replaced. -/
theorem exists_sum_set (f : α → Nat) (hn : as[n]? = some old) :
    ∃ base, (as.map f).sum = base + f old ∧ ∀ new, ((as.set n new).map f).sum = base + f new := by
  obtain ⟨hlt, rfl⟩ := List.getElem?_eq_some_iff.mp hn
  have hset (new : α) : ((as.set n new).map f).sum =
      (((as.map f).take n).sum + ((as.map f).drop (n + 1)).sum) + f new := by
    rw [map_set, sum_set, if_pos (by rwa [length_map])]
    omega
  refine ⟨_, ?_, hset⟩
  rw [← hset, set_getElem_self]

theorem set_last (as : List α) (last new : α) :
    (as ++ [last]).set as.length new = as ++ [new] := by
  rw [set_append_right _ _ (Nat.le_refl _), Nat.sub_self]
  rfl

end Spaznet.Replace
