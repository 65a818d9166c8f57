import Spaznet.Lib.Cursor
import Mathlib.Algebra.Order.Ring.Nat
import Mathlib.Tactic.IntervalCases
import Mathlib.Tactic.NormNum
import Mathlib.Tactic.Ring

/-!
# Variable-length integers

The two top bits of the first byte give the length of the encoding: 1, 2, 4 or 8 bytes holding 6,
14, 30 or 62 bits. `encode` fails where the code throws `std::out_of_range`; `decode` returns the
value and the offset after it.
-/

namespace Spaznet.Quic

open List UInt8 Option

abbrev Bytes := List UInt8

namespace VarInt

def kMax : Nat := 2 ^ 62 - 1

def encodedSize (value : Nat) : Option Nat :=
  if value ≤ 2 ^ 6 - 1 then some 1
  else if value ≤ 2 ^ 14 - 1 then some 2
  else if value ≤ 2 ^ 30 - 1 then some 4
  else if value ≤ kMax then some 8
  else none

def byteAt (value shift : Nat) : UInt8 := ofNat (value >>> shift)

def encode (value : Nat) : Option Bytes :=
  match encodedSize value with
  | none => none
  | some 1 => some [byteAt value 0]
  | some 2 => some [ofNat (0x40 ||| ((value >>> 8) &&& 0x3F)), byteAt value 0]
  | some 4 => some [ofNat (0x80 ||| ((value >>> 24) &&& 0x3F)),
      byteAt value 16, byteAt value 8, byteAt value 0]
  | some _ => some [ofNat (0xC0 ||| ((value >>> 56) &&& 0x3F)),
      byteAt value 48, byteAt value 40, byteAt value 32,
      byteAt value 24, byteAt value 16, byteAt value 8, byteAt value 0]

def accumulate (result : Nat) (bytes : Bytes) : Nat :=
  bytes.foldl (fun r b => r * 256 + b.toNat) result

/-- The value at `offset` and the offset of the byte after it. -/
def decode (buf : Bytes) (offset : Nat) : Option (Nat × Nat) :=
  match buf[offset]? with
  | none => none
  | some first =>
    let size := 1 <<< (first >>> 6).toNat
    if offset + size > buf.length then none
    else some (accumulate (first &&& 0x3F).toNat ((buf.drop (offset + 1)).take (size - 1)),
      offset + size)

/-! ## Bounds -/

variable {value : Nat} {bytes : Bytes}

theorem encode_isSome : (encode value).isSome ↔ value ≤ kMax := by
  have hsize : (encodedSize value).isSome ↔ value ≤ kMax := by
    unfold encodedSize kMax
    repeat' split
    all_goals simp
    all_goals omega
  unfold encode
  split <;> simp_all

theorem length_encode (h : encode value = some bytes) :
    1 ≤ bytes.length ∧ bytes.length ≤ 8 := by
  unfold encode at h
  split at h <;> simp only [some.injEq, reduceCtorEq] at h <;> subst h <;> simp

theorem encodedSize_cases (value : Nat) : encodedSize value = none ∨ encodedSize value = some 1 ∨
    encodedSize value = some 2 ∨ encodedSize value = some 4 ∨ encodedSize value = some 8 := by
  unfold encodedSize
  split_ifs <;> simp

theorem encodedSize_encode (h : encode value = some bytes) :
    encodedSize value = some bytes.length := by
  rcases encodedSize_cases value with hs | hs | hs | hs | hs
  · simp [encode, hs] at h
  all_goals
    simp only [encode, hs, some.injEq] at h
    rw [← h, hs]
    rfl

theorem accumulate_lt (h : r < b) :
    accumulate r bytes < b * 256 ^ bytes.length := by
  induction bytes generalizing r b with
  | nil => simpa [accumulate] using h
  | cons x t ih =>
    have hx : x.toNat < 256 := x.toNat_lt
    have := ih (r := r * 256 + x.toNat) (b := b * 256) (by omega)
    calc accumulate r (x :: t) = accumulate (r * 256 + x.toNat) t := rfl
      _ < b * 256 * 256 ^ t.length := this
      _ = b * 256 ^ (x :: t).length := by rw [length_cons]; ring

/-- What a successful decode says: the cursor moves by 1 to 8 bytes and stays inside the buffer,
and the value has at most 62 bits. -/
theorem decode_spec (h : decode buf offset = some (value, stop)) :
    offset < stop ∧ stop ≤ offset + 8 ∧ stop ≤ buf.length ∧ value < 2 ^ 62 := by
  unfold decode at h
  split at h
  · cases h
  rename_i first _
  simp only [ite_none_left_eq_some, Nat.not_lt, some.injEq,
    Prod.mk.injEq] at h
  obtain ⟨hle, hv, rfl⟩ := h
  have hfirst : (first >>> 6).toNat < 4 := by
    have := first.toNat_lt
    simp
    omega
  have hsmall : (first &&& 0x3F).toNat < 64 := by
    exact Nat.and_lt_two_pow (n := 6) _ (by decide)
  have hlen : ((buf.drop (offset + 1)).take (1 <<< (first >>> 6).toNat - 1)).length ≤
      1 <<< (first >>> 6).toNat - 1 := length_take_le _ _
  have hacc : value < 64 * 256 ^ _ := hv ▸ accumulate_lt hsmall
  have hsize : 1 <<< (first >>> 6).toNat ≤ 8 ∧ 1 ≤ 1 <<< (first >>> 6).toNat := by
    interval_cases (first >>> 6).toNat <;> decide
  refine ⟨by omega, by omega, hle, hacc.trans_le ?_⟩
  calc 64 * 256 ^ _ ≤ 64 * 256 ^ 7 :=
      Nat.mul_le_mul_left _ (Nat.pow_le_pow_right (by decide) (by omega))
    _ = 2 ^ 62 := by norm_num

/-! ## Round trip -/

theorem encode_of_le (h : value ≤ kMax) : ∃ e, encode value = some e :=
  isSome_iff_exists.mp (encode_isSome.mpr h)

theorem firstByte (htag : tag < 4) (hx : x < 64) :
    (ofNat (tag * 64 ||| x) >>> 6).toNat = tag ∧
      (ofNat (tag * 64 ||| x) &&& 0x3F).toNat = x :=
  (by decide +kernel : ∀ (tag : Fin 4) (x : Fin 64),
    (ofNat (tag.1 * 64 ||| x.1) >>> 6).toNat = tag.1 ∧
      (ofNat (tag.1 * 64 ||| x.1) &&& 0x3F).toNat = x.1) ⟨tag, htag⟩ ⟨x, hx⟩

/-- Accumulating the low `n` bytes of a value, the highest first, adds their digits to those above. -/
theorem accumulate_byteAt (value n : Nat) : accumulate (value / 2 ^ (8 * n))
    ((List.range n).reverse.map fun i => byteAt value (8 * i)) = value := by
  induction n with
  | zero => exact Nat.div_one value
  | succ n ih =>
    have hbyte : (byteAt value (8 * n)).toNat = value / 2 ^ (8 * n) % 256 := by
      rw [byteAt, Nat.shiftRight_eq_div_pow, toNat_ofNat']
    have hdiv : value / 2 ^ (8 * (n + 1)) = value / 2 ^ (8 * n) / 256 := by
      rw [Nat.mul_succ, pow_add, ← Nat.div_div_eq_div_mul]
      rfl
    rw [range_succ, reverse_append, reverse_singleton, singleton_append, map_cons]
    show accumulate (value / 2 ^ (8 * (n + 1)) * 256 + (byteAt value (8 * n)).toNat) _ = _
    rw [hbyte, hdiv, Nat.div_add_mod', ih]

/-- A first byte with tag `tag` and six value bits, followed by what its tag announces, decodes to
the accumulated value. -/
theorem reads_decode (tag : Nat) {tail : Bytes} (htag : tag < 4) (hx : x < 64)
    (hlen : tail.length + 1 = 1 <<< tag) (hacc : accumulate x tail = value) :
    Reads decode (ofNat (tag * 64 ||| x) :: tail) value := by
  intro buf off t h
  obtain ⟨hshift, hmask⟩ := firstByte htag hx
  have hbuf := h.length_eq
  simp only [length_cons, length_append] at hbuf h ⊢
  have htail : (buf.drop (off + 1)).take tail.length = tail := h.next.take_eq
  unfold decode
  simp only [h.getElem?_eq, hshift, hmask, ← hlen, Nat.add_sub_cancel, htail, hacc]
  rw [if_neg (by omega)]

theorem decode_encode {e : Bytes} (h : encode value = some e) :
    Reads decode e value := by
  have hsize := encodedSize_encode h
  have hsix {n : Nat} (hn : value / 2 ^ n < 64) : (value >>> n) &&& 0x3F = value / 2 ^ n := by
    rw [Nat.shiftRight_eq_div_pow]
    exact Nat.and_two_pow_sub_one_of_lt_two_pow (n := 6) hn
  unfold encodedSize at hsize
  split_ifs at hsize with h1 h2 h3 h4
  · simp only [encode, encodedSize, if_pos h1, some.injEq] at h
    subst h
    have hread : Reads decode (ofNat (0 * 64 ||| value) :: []) value :=
      reads_decode 0 (by decide) (by omega) rfl rfl
    rwa [Nat.zero_or] at hread
  · simp only [encode, encodedSize, if_neg h1, if_pos h2, some.injEq] at h
    subst h
    have hn : value / 2 ^ 8 < 64 := by omega
    rw [hsix hn]
    exact reads_decode 1 (by decide) hn rfl (accumulate_byteAt value 1)
  · simp only [encode, encodedSize, if_neg h1, if_neg h2, if_pos h3, some.injEq] at h
    subst h
    have hn : value / 2 ^ 24 < 64 := by omega
    rw [hsix hn]
    exact reads_decode 2 (by decide) hn rfl (accumulate_byteAt value 3)
  · simp only [encode, encodedSize, if_neg h1, if_neg h2, if_neg h3, if_pos h4,
      some.injEq] at h
    subst h
    have hn : value / 2 ^ 56 < 64 := by unfold kMax at h4; omega
    rw [hsix hn]
    exact reads_decode 3 (by decide) hn rfl (accumulate_byteAt value 7)

end VarInt

end Spaznet.Quic
