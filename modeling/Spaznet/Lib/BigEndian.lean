import Mathlib.Algebra.Order.Ring.Nat
import Mathlib.Data.List.Induction

/-!
# Numbers in network byte order

The most significant byte comes first.
-/

namespace Spaznet.BigEndian

open List

def encode : (k n : Nat) → List UInt8
  | 0, _ => []
  | k + 1, n => encode k (n >>> 8) ++ [UInt8.ofNat n]

def decode (bytes : List UInt8) : Nat := bytes.foldl (fun n b => n * 256 + b.toNat) 0

theorem decode_concat (bytes : List UInt8) (b : UInt8) :
    decode (bytes ++ [b]) = decode bytes * 256 + b.toNat := by
  rw [decode, foldl_append]
  rfl

theorem decode_encode (k n : Nat) : decode (encode k n) = n % 256 ^ k := by
  induction k generalizing n with
  | zero => exact (Nat.mod_one n).symm
  | succ k ih =>
    have hpow : 256 ^ (k + 1) = 256 * 256 ^ k := Nat.pow_succ'
    have hshift : n >>> 8 = n / 256 := Nat.shiftRight_eq_div_pow n 8
    rw [encode, decode_concat, ih, UInt8.toNat_ofNat', hpow, Nat.mod_mul, hshift]
    omega

end Spaznet.BigEndian
