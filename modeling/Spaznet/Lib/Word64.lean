import Mathlib.Algebra.Order.Ring.Nat
import Mathlib.Algebra.BigOperators.Group.List.Basic

/-!
# Unsigned 64-bit arithmetic

`uint64_t` and `size_t` values are natural numbers below `2 ^ 64`. An addition or subtraction that
can leave that range is written with `add` and `sub`, which wrap as the machine does; the lemmas
say when they agree with the exact operations. A signed operation is exact or undefined.
-/

namespace Spaznet.Word64

def add (a b : Nat) : Nat := (a + b) % 2 ^ 64

def sub (a b : Nat) : Nat := (a + (2 ^ 64 - b)) % 2 ^ 64

theorem add_eq (h : a + b < 2 ^ 64) : add a b = a + b := Nat.mod_eq_of_lt h

theorem add_le (a b : Nat) : add a b ≤ a + b := Nat.mod_le _ _

theorem sub_eq (ha : a < 2 ^ 64) (h : b ≤ a) : sub a b = a - b := by
  unfold sub
  rw [show a + (2 ^ 64 - b) = (a - b) + 2 ^ 64 by omega, Nat.add_mod_right]
  exact Nat.mod_eq_of_lt (by omega)

theorem sub_le_sub (hb : b ≤ 2 ^ 64) (h : b ≤ a) : sub a b ≤ a - b := by
  unfold sub
  rw [show a + (2 ^ 64 - b) = (a - b) + 2 ^ 64 by omega, Nat.add_mod_right]
  exact Nat.mod_le _ _

theorem sub_add_left (a : Nat) (hb : b ≤ 2 ^ 64) : sub (b + a) b = sub a 0 := by
  unfold sub
  rw [show b + a + (2 ^ 64 - b) = a + (2 ^ 64 - 0) by omega]

/-- A running sum that ends inside the range is exact. -/
theorem foldl_add_eq {l : List α} (h : a + (l.map g).sum < 2 ^ 64) :
    l.foldl (fun total x => add total (g x)) a = a + (l.map g).sum := by
  induction l generalizing a with
  | nil => rfl
  | cons x l ih =>
    rw [List.map_cons, List.sum_cons, ← Nat.add_assoc] at h ⊢
    have hx : add a (g x) = a + g x := add_eq (by omega)
    rw [List.foldl_cons, hx, ih h]

/-! ## Signed values -/

def Fits (n : Int) : Prop := -2 ^ 63 ≤ n ∧ n < 2 ^ 63
  deriving Decidable

/-- The result of a signed operation, which is undefined if it does not fit. -/
def signed (n : Int) : Option Int := if Fits n then some n else none

/-- The signed value of the low 64 bits: a conversion from unsigned, or a left shift. -/
def wrap (n : Int) : Int := Int.bmod n (2 ^ 64)

theorem signed_eq_some : signed n = some m ↔ Fits n ∧ n = m := by
  unfold signed
  split <;> simp_all

theorem wrap_eq_self : wrap n = n ↔ Fits n := by
  unfold wrap Fits
  constructor
  · intro h
    have hlo := Int.le_bmod (x := n) (m := 2 ^ 64) (by decide)
    have hhi := Int.bmod_lt (x := n) (m := 2 ^ 64) (by decide)
    omega
  · intro h
    exact Int.bmod_eq_of_le (by omega) (by omega)

end Spaznet.Word64
