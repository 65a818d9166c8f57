import Spaznet.Http2.Hpack
import Spaznet.Http3.Qpack

/-!
# What prefix integers denote

The guard on the shift lets the last group stand at bit 28 or bit 63, where seven bits are more than
the accumulator has room for. What does not fit is lost.
-/

namespace Spaznet.Codec

open Http (Bytes)
open Http2.HPACK (decodePrefixInt encodePrefixInt decodePrefixInt_encodePrefixInt)
open Http3 (readInt writeInt readInt_writeInt)

/-- The groups of seven bits as a number of any size. -/
def denotedGroups (v shift : Nat) : Bytes → Option (Nat × Bytes)
  | [] => none
  | b :: data =>
    let v := v + (b &&& 0x7F).toNat <<< shift
    if b &&& 0x80 = 0 then some (v, data) else denotedGroups v (shift + 7) data

/-- The number that starts in the `n` lowest bits of the byte in front. -/
def denoted (n : Nat) : Bytes → Option (Nat × Bytes)
  | [] => none
  | b :: data =>
    let v := b.toNat &&& (2 ^ n - 1)
    if v < 2 ^ n - 1 then some (v, data) else denotedGroups v 0 data

def Exact (decode : Bytes → Option (Nat × Bytes)) (n : Nat) (data : Bytes) : Prop :=
  ∀ value rest, decode data = some (value, rest) → denoted n data = some (value, rest)

/-- The bytes denote a number of more than `width` bits whose groups end by the shift `limit`. -/
def Exceeds (width limit n : Nat) (data : Bytes) : Prop :=
  ¬IntFault limit n data ∧ ∃ value rest, denoted n data = some (value, rest) ∧ 2 ^ width ≤ value

theorem denotedGroups_of_readGroups (h : readGroups width limit v shift data = some (value, rest))
    (hv : v % 2 ^ width = u % 2 ^ width) :
    ∃ number, denotedGroups u shift data = some (number, rest) ∧ value = number % 2 ^ width := by
  induction data generalizing v u shift with
  | nil => cases h
  | cons b data ih =>
    have hadd : (v + (b &&& 0x7F).toNat <<< shift) % 2 ^ width =
        (u + (b &&& 0x7F).toNat <<< shift) % 2 ^ width := by
      rw [Nat.add_mod, hv, ← Nat.add_mod]
    unfold readGroups at h
    unfold denotedGroups
    dsimp only at h ⊢
    split at h
    next hlast =>
      cases h
      exact ⟨_, if_pos hlast, hadd⟩
    next hmore =>
      split at h
      · cases h
      · rw [if_neg hmore]
        exact ih h ((Nat.mod_mod ..).trans hadd)

theorem denoted_of_readPrefixInt (hwidth : 8 ≤ width)
    (h : readPrefixInt width limit n data = some (value, rest)) :
    ∃ number, denoted n data = some (number, rest) ∧ value = number % 2 ^ width := by
  cases data with
  | nil => cases h
  | cons b data =>
    unfold readPrefixInt at h
    unfold denoted
    dsimp only at h ⊢
    split at h
    next hshort =>
      cases h
      have hbyte : b.toNat &&& (2 ^ n - 1) < 2 ^ width :=
        (Nat.and_le_left.trans_lt b.toNat_lt).trans_le (Nat.pow_le_pow_right (by decide) hwidth)
      exact ⟨_, if_pos hshort, (Nat.mod_eq_of_lt hbyte).symm⟩
    next hlong =>
      rw [if_neg hlong]
      exact denotedGroups_of_readGroups h rfl

theorem exact_readPrefixInt (hwidth : 8 ≤ width) :
    Exact (readPrefixInt width limit n) n data ↔ ¬Exceeds width limit n data := by
  have hnone : readPrefixInt width limit n data = none ↔ IntFault limit n data :=
    readPrefixInt_eq_none
  unfold Exact Exceeds
  rw [← hnone]
  cases hread : readPrefixInt width limit n data with
  | none => simp
  | some p =>
    obtain ⟨value, rest⟩ := p
    obtain ⟨number, hnumber, rfl⟩ := denoted_of_readPrefixInt hwidth hread
    have hfits : number % 2 ^ width = number ↔ number < 2 ^ width :=
      Nat.mod_eq_iff_lt (Nat.two_pow_pos width).ne'
    simp [hnumber, ← hfits, eq_comm]

theorem exact_decodePrefixInt :
    Exact (decodePrefixInt n) n data ↔ (1 ≤ n ∧ n ≤ 8 → ¬Exceeds 32 28 n data) := by
  unfold decodePrefixInt
  split
  next hbits => exact iff_of_true nofun fun hn => absurd hbits (by omega)
  next hbits =>
    have hn : 1 ≤ n ∧ n ≤ 8 := by omega
    rw [exact_readPrefixInt (by decide)]
    exact ⟨fun h _ => h, fun h => h hn⟩

/-- **Prefix integers.** What HPACK and QPACK decode is what the bytes denote, unless that is more
than 32 or 64 bits hold and ends by the shift that they accept. What they encode, they decode. -/
theorem prefixInts_exact (n : Nat) (data : Bytes) :
    (Exact (decodePrefixInt n) n data ∧ Exact (readInt n) n data ↔
      (1 ≤ n ∧ n ≤ 8 → ¬Exceeds 32 28 n data) ∧ ¬Exceeds 64 63 n data) ∧
    ∀ highBits value rest, Clear highBits n →
      (1 ≤ n ∧ n ≤ 8 → value < 2 ^ 32 →
        decodePrefixInt n (encodePrefixInt highBits n value ++ rest) =
          some (value, rest)) ∧
      (value < 2 ^ 64 → readInt n (writeInt value highBits n ++ rest) =
        some (value, rest)) := by
  refine ⟨and_congr exact_decodePrefixInt (exact_readPrefixInt (by decide)), ?_⟩
  intro highBits value rest hclear
  exact ⟨fun hn hvalue => decodePrefixInt_encodePrefixInt hn hclear hvalue rest,
    fun hvalue => readInt_writeInt hclear hvalue rest⟩

/-- Bit 32 of an HPACK integer is lost. -/
theorem bit_lost : ¬Exact (decodePrefixInt 7) 7 [0x7f, 0x80, 0x80, 0x80, 0x80, 0x10] := by
  intro h
  have hdecode : decodePrefixInt 7 [0x7f, 0x80, 0x80, 0x80, 0x80, 0x10] = some (127, []) := by
    decide
  exact absurd (h _ _ hdecode) (by decide)

end Spaznet.Codec
