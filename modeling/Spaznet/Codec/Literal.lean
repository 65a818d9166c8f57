import Spaznet.Codec.Huffman
import Spaznet.Lib.Decoder

/-!
# Prefix integers and string literals

What HPACK and QPACK have in common. They differ in the width of their integers, in the shift at
which an integer is given up, and in the place of the Huffman bit.
-/

namespace Spaznet.Codec

open Option UInt8
open Http (Bytes)

/-! ## Integers -/

/-- Seven bits at a time, the lowest ones first, in unsigned arithmetic of `width` bits. Past the
shift `limit` the integer is given up. -/
def readGroups (width limit v shift : Nat) : Bytes → Option (Nat × Bytes)
  | [] => none
  | b :: data =>
    let v := (v + (b &&& 0x7F).toNat <<< shift) % 2 ^ width
    if b &&& 0x80 = 0 then some (v, data)
    else if shift + 7 > limit then none
    else readGroups width limit v (shift + 7) data

/-- An integer that starts in the `n` lowest bits of the byte in front. -/
def readPrefixInt (width limit n : Nat) : Bytes → Option (Nat × Bytes)
  | [] => none
  | b :: data =>
    let maxPrefix := 2 ^ n - 1
    let v := b.toNat &&& maxPrefix
    if v < maxPrefix then some (v, data) else readGroups width limit v 0 data

/-- No number of 64 bits has more than ten groups. -/
def writeGroups : (fuel value : Nat) → Bytes
  | 0, value => [ofNat value]
  | fuel + 1, value =>
    if value ≥ 128 then ofNat ((value &&& 0x7F) ||| 0x80) :: writeGroups fuel (value >>> 7)
    else [ofNat value]

/-- The bits above the `n` lowest ones of the first byte are those of `highBits`. -/
def writePrefixInt (highBits : UInt8) (n value : Nat) : Bytes :=
  let maxPrefix := 2 ^ n - 1
  if value < maxPrefix then [highBits ||| ofNat value]
  else (highBits ||| ofNat maxPrefix) :: writeGroups 10 (value - maxPrefix)

theorem local_readGroups (width limit v shift : Nat) : Local (readGroups width limit v shift) := by
  intro data v' rest h
  induction data generalizing v shift with
  | nil => cases h
  | cons b data ih =>
    unfold readGroups at h
    split at h
    next hlast =>
      cases h
      exact ⟨[b], rfl, fun more => if_pos hlast⟩
    next hmore =>
      split at h
      · cases h
      next hlimit =>
        obtain ⟨used, rfl, hused⟩ := ih _ _ h
        refine ⟨b :: used, rfl, fun more => ?_⟩
        rw [List.cons_append, readGroups, if_neg hmore, if_neg hlimit, hused]

theorem local_readPrefixInt (width limit n : Nat) : Local (readPrefixInt width limit n) := by
  intro data v rest h
  cases data with
  | nil => cases h
  | cons b data =>
    unfold readPrefixInt at h
    dsimp only at h
    split at h
    next hshort =>
      cases h
      exact ⟨[b], rfl, fun more => if_pos hshort⟩
    next hlong =>
      obtain ⟨used, rfl, hused⟩ := local_readGroups _ _ _ _ h
      refine ⟨b :: used, rfl, fun more => ?_⟩
      rw [List.cons_append, readPrefixInt, if_neg hlong, hused]

theorem progresses_readPrefixInt (width limit n : Nat) :
    Progresses (readPrefixInt width limit n) := by
  intro data v rest h
  cases data with
  | nil => cases h
  | cons b data =>
    unfold readPrefixInt at h
    dsimp only at h
    split at h
    · cases h
      exact Nat.lt_succ_self _
    · obtain ⟨used, rfl, -⟩ := local_readGroups _ _ _ _ h
      rw [List.length_cons, List.length_append]
      omega

/-- Every byte asks for another one, and the bytes or the shifts come to an end. -/
def Unended (limit shift : Nat) (data : Bytes) : Prop :=
  ∀ b ∈ data.take ((limit - shift) / 7 + 1), b &&& 0x80 ≠ 0

theorem readGroups_eq_none (hshift : shift ≤ limit) :
    readGroups width limit v shift data = none ↔ Unended limit shift data := by
  induction data generalizing v shift with
  | nil => exact ⟨fun _ => nofun, fun _ => rfl⟩
  | cons b data ih =>
    unfold readGroups Unended
    rw [List.take_succ_cons, List.forall_mem_cons]
    split
    next hlast => exact ⟨nofun, fun h => absurd hlast h.1⟩
    next hmore =>
      split
      next hlimit =>
        have hstop : (limit - shift) / 7 = 0 := by omega
        rw [hstop]
        exact ⟨fun _ => ⟨hmore, nofun⟩, fun _ => rfl⟩
      next hlimit =>
        have hgroups : (limit - shift) / 7 = (limit - (shift + 7)) / 7 + 1 := by omega
        rw [ih (by omega), hgroups]
        exact ⟨fun h => ⟨hmore, h⟩, fun h => h.2⟩

/-- What keeps an integer from being read: it is cut off, or goes on for too long. -/
def IntFault (limit n : Nat) : Bytes → Prop
  | [] => True
  | b :: data => b.toNat &&& (2 ^ n - 1) = 2 ^ n - 1 ∧ Unended limit 0 data

theorem readPrefixInt_eq_none :
    readPrefixInt width limit n data = none ↔ IntFault limit n data := by
  cases data with
  | nil => exact ⟨fun _ => trivial, fun _ => rfl⟩
  | cons b data =>
    have hle : b.toNat &&& (2 ^ n - 1) ≤ 2 ^ n - 1 := Nat.and_le_right
    unfold readPrefixInt IntFault
    dsimp only
    split
    next hshort => exact ⟨nofun, fun h => absurd h.1 (Nat.ne_of_lt hshort)⟩
    next hlong =>
      rw [readGroups_eq_none (Nat.zero_le _)]
      exact ⟨fun h => ⟨Nat.le_antisymm hle (Nat.not_lt.mp hlong), h⟩, fun h => h.2⟩

/-! ## Strings -/

/-- A text as it is, or under the Huffman code. -/
def readText (huff : Bool) (raw : Bytes) : Option Bytes :=
  if huff then huffmanDecode raw else some raw

/-- The Huffman bit stands above the `n` bits of the length. -/
def readString (width limit n : Nat) (data : Bytes) : Option (Bytes × Bytes) :=
  data.head?.bind fun b =>
    (readPrefixInt width limit n data).bind fun length =>
      (takeExactly length.1 length.2).bind fun raw =>
        (readText (b &&& (1 <<< ofNat n) ≠ 0) raw.1).map (·, raw.2)

theorem local_readString (width limit n : Nat) : Local (readString width limit n) := by
  refine Local.peek (fun b => ?_) fun b => ?_
  · exact (local_readPrefixInt width limit n).bind fun length =>
      (local_takeExactly length).bind fun raw => local_option (readText _ raw)
  · exact (progresses_readPrefixInt width limit n).bind fun length =>
      (local_takeExactly length).bind fun raw => local_option (readText _ raw)

theorem length_readText (h : readText huff raw = some text) : text.length ≤ 8 * raw.length := by
  unfold readText at h
  split at h
  · exact length_huffmanDecode h
  · cases h
    omega

theorem length_readString (h : readString width limit n data = some (text, rest)) :
    text.length + 8 * rest.length < 8 * data.length := by
  obtain ⟨b, -, h⟩ := bind_eq_some_iff.mp h
  obtain ⟨⟨length, data'⟩, hlength, h⟩ := bind_eq_some_iff.mp h
  have hlt := progresses_readPrefixInt width limit n hlength
  obtain ⟨⟨raw, rest'⟩, hraw, h⟩ := bind_eq_some_iff.mp h
  obtain ⟨text', htext, heq⟩ := map_eq_some_iff.mp h
  cases heq
  have hle := length_readText htext
  have hsplit : raw.length + rest'.length = data'.length := by
    unfold takeExactly at hraw
    split at hraw
    · cases hraw
      rw [← List.length_append, List.take_append_drop]
    · cases hraw
  dsimp only at hlt hle ⊢
  omega

/-! ## What is written is read back -/

/-- Seven bits in a byte, without the bit that asks for more and with it. -/
theorem group_byte : ∀ v : Fin 128,
    (ofNat v.1 &&& 0x80 = 0 ∧ (ofNat v.1 &&& 0x7F).toNat = v.1) ∧
      ofNat (v.1 ||| 0x80) &&& 0x80 ≠ 0 ∧
        (ofNat (v.1 ||| 0x80) &&& 0x7F).toNat = v.1 := by decide +kernel

theorem readGroups_writeGroups_of_lt (h : value < 128) (fuel v : Nat) (rest : Bytes) :
    readGroups width limit v shift (writeGroups fuel value ++ rest) =
      some ((v + value <<< shift) % 2 ^ width, rest) := by
  obtain ⟨⟨hstop, hbits⟩, -⟩ := group_byte ⟨value, h⟩
  have hwrite : writeGroups fuel value = [ofNat value] := by
    cases fuel with
    | zero => rfl
    | succ fuel => rw [writeGroups, if_neg (Nat.not_le.mpr h)]
  rw [hwrite, List.singleton_append, readGroups, if_pos hstop, hbits]

theorem readGroups_writeGroups (hvalue : value < 128 ^ (k + 1)) (hfuel : k ≤ fuel)
    (hlimit : shift + 7 * k ≤ limit) (v : Nat) (rest : Bytes) :
    readGroups width limit v shift (writeGroups fuel value ++ rest) =
      some ((v + value <<< shift) % 2 ^ width, rest) := by
  induction k generalizing fuel value v shift with
  | zero => exact readGroups_writeGroups_of_lt hvalue fuel v rest
  | succ k ih =>
    by_cases hlt : value < 128
    · exact readGroups_writeGroups_of_lt hlt fuel v rest
    obtain ⟨fuel, rfl⟩ : ∃ f, fuel = f + 1 := ⟨fuel - 1, by omega⟩
    obtain ⟨-, hmore, hbits⟩ := group_byte ⟨value % 128, Nat.mod_lt value (by decide)⟩
    have hsmall : value >>> 7 < 128 ^ (k + 1) := by
      rw [Nat.shiftRight_eq_div_pow]
      exact Nat.div_lt_of_lt_mul (Nat.pow_succ' ▸ hvalue)
    have hsum : (value % 128) <<< shift + value >>> 7 <<< (shift + 7) = value <<< shift := by
      rw [Nat.add_comm shift, Nat.shiftLeft_add, Nat.shiftLeft_eq, Nat.shiftLeft_eq _ shift,
        ← Nat.add_mul, Nat.shiftLeft_eq, Nat.shiftRight_eq_div_pow, Nat.mod_add_div',
        Nat.shiftLeft_eq]
    rw [writeGroups, if_pos (Nat.not_lt.mp hlt), Nat.and_two_pow_sub_one_eq_mod _ 7,
      List.cons_append, readGroups, if_neg hmore, if_neg (by omega), hbits,
      ih hsmall (by omega) (by omega), Nat.mod_add_mod, Nat.add_assoc, hsum]

/-- The bits above the integer tell what it belongs to. -/
theorem head?_writePrefixInt (highBits : UInt8) (n value : Nat) (rest : Bytes) :
    ∃ v < 2 ^ n, (writePrefixInt highBits n value ++ rest).head? =
      some (highBits ||| ofNat v) := by
  have hpos := Nat.two_pow_pos n
  unfold writePrefixInt
  dsimp only
  split
  · exact ⟨value, by omega, rfl⟩
  · exact ⟨2 ^ n - 1, by omega, rfl⟩

/-- The `n` lowest bits of the first byte hold the integer, whatever stands above them. -/
def Clear (highBits : UInt8) (n : Nat) : Prop :=
  ∀ v : Fin (2 ^ n), (highBits ||| ofNat v.1).toNat &&& (2 ^ n - 1) = v.1
  deriving Decidable

section

variable {width limit n : Nat} {highBits : UInt8}

-- The groups up to the shift `limit` hold every number of `width` bits.
variable (hgroups : width ≤ limit + 7 ∧ 7 ∣ limit ∧ limit ≤ 70) (hclear : Clear highBits n)

include hgroups hclear

theorem readPrefixInt_writePrefixInt (hvalue : value < 2 ^ width) (rest : Bytes) :
    readPrefixInt width limit n (writePrefixInt highBits n value ++ rest) = some (value, rest) := by
  obtain ⟨hwidth, ⟨k, rfl⟩, hfuel⟩ := hgroups
  have hpos := Nat.two_pow_pos n
  have hle : 2 ^ width ≤ 2 ^ (7 * (k + 1)) := Nat.pow_le_pow_right (by decide) (by omega)
  rw [Nat.pow_mul, show 2 ^ 7 = 128 from rfl] at hle
  unfold writePrefixInt
  dsimp only
  split
  next hshort =>
    rw [List.singleton_append, readPrefixInt, hclear ⟨value, by omega⟩, if_pos hshort]
  next hlong =>
    rw [List.cons_append, readPrefixInt, hclear ⟨2 ^ n - 1, by omega⟩, if_neg (Nat.lt_irrefl _),
      readGroups_writeGroups (k := k) (by omega) (by omega) (by omega), Nat.shiftLeft_zero,
      Nat.add_sub_cancel' (Nat.not_lt.mp hlong), Nat.mod_eq_of_lt hvalue]

theorem readString_writePrefixInt
    (hhuff : ∀ v : Fin (2 ^ n),
      decide ((highBits ||| ofNat v.1) &&& (1 <<< ofNat n) ≠ 0) = huff)
    (hraw : raw.length < 2 ^ width) (htext : readText huff raw = some text) (rest : Bytes) :
    readString width limit n (writePrefixInt highBits n raw.length ++ raw ++ rest) =
      some (text, rest) := by
  obtain ⟨v, hv, hhead⟩ := head?_writePrefixInt highBits n raw.length (raw ++ rest)
  have htake : takeExactly raw.length (raw ++ rest) = some (raw, rest) := by
    rw [takeExactly, if_pos (by simp), List.take_left, List.drop_left]
  rw [List.append_assoc, readString, hhead, bind_some,
    readPrefixInt_writePrefixInt hgroups hclear hraw, bind_some, htake, bind_some,
    hhuff ⟨v, hv⟩, htext, map_some]

end

end Spaznet.Codec
