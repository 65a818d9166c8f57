import Spaznet.Http.Text

/-!
# The Huffman code of header fields

The code table of `huffman.cpp`, the encoder, and the tree the decoder walks. A node of the tree is
known by the path that leads to it, where the code keeps an index.
-/

namespace Spaznet.Codec

open List UInt8
open Http (Bytes)

/-- Code and number of bits of each byte, and last of the end of string. -/
def kTable : List (Nat × Nat) :=
  [ (0x1ff8, 13), (0x7fffd8, 23), (0xfffffe2, 28), (0xfffffe3, 28), (0xfffffe4, 28),
    (0xfffffe5, 28), (0xfffffe6, 28), (0xfffffe7, 28), (0xfffffe8, 28), (0xffffea, 24),
    (0x3ffffffc, 30), (0xfffffe9, 28), (0xfffffea, 28), (0x3ffffffd, 30), (0xfffffeb, 28),
    (0xfffffec, 28), (0xfffffed, 28), (0xfffffee, 28), (0xfffffef, 28), (0xffffff0, 28),
    (0xffffff1, 28), (0xffffff2, 28), (0x3ffffffe, 30), (0xffffff3, 28), (0xffffff4, 28),
    (0xffffff5, 28), (0xffffff6, 28), (0xffffff7, 28), (0xffffff8, 28), (0xffffff9, 28),
    (0xffffffa, 28), (0xffffffb, 28), (0x14, 6), (0x3f8, 10), (0x3f9, 10), (0xffa, 12),
    (0x1ff9, 13), (0x15, 6), (0xf8, 8), (0x7fa, 11), (0x3fa, 10), (0x3fb, 10), (0xf9, 8),
    (0x7fb, 11), (0xfa, 8), (0x16, 6), (0x17, 6), (0x18, 6), (0x0, 5), (0x1, 5), (0x2, 5),
    (0x19, 6), (0x1a, 6), (0x1b, 6), (0x1c, 6), (0x1d, 6), (0x1e, 6), (0x1f, 6), (0x5c, 7),
    (0xfb, 8), (0x7ffc, 15), (0x20, 6), (0xffb, 12), (0x3fc, 10), (0x1ffa, 13), (0x21, 6),
    (0x5d, 7), (0x5e, 7), (0x5f, 7), (0x60, 7), (0x61, 7), (0x62, 7), (0x63, 7), (0x64, 7),
    (0x65, 7), (0x66, 7), (0x67, 7), (0x68, 7), (0x69, 7), (0x6a, 7), (0x6b, 7), (0x6c, 7),
    (0x6d, 7), (0x6e, 7), (0x6f, 7), (0x70, 7), (0x71, 7), (0x72, 7), (0xfc, 8), (0x73, 7),
    (0xfd, 8), (0x1ffb, 13), (0x7fff0, 19), (0x1ffc, 13), (0x3ffc, 14), (0x22, 6), (0x7ffd, 15),
    (0x3, 5), (0x23, 6), (0x4, 5), (0x24, 6), (0x5, 5), (0x25, 6), (0x26, 6), (0x27, 6), (0x6, 5),
    (0x74, 7), (0x75, 7), (0x28, 6), (0x29, 6), (0x2a, 6), (0x7, 5), (0x2b, 6), (0x76, 7),
    (0x2c, 6), (0x8, 5), (0x9, 5), (0x2d, 6), (0x77, 7), (0x78, 7), (0x79, 7), (0x7a, 7),
    (0x7b, 7), (0x7ffe, 15), (0x7fc, 11), (0x3ffd, 14), (0x1ffd, 13), (0xffffffc, 28),
    (0xfffe6, 20), (0x3fffd2, 22), (0xfffe7, 20), (0xfffe8, 20), (0x3fffd3, 22), (0x3fffd4, 22),
    (0x3fffd5, 22), (0x7fffd9, 23), (0x3fffd6, 22), (0x7fffda, 23), (0x7fffdb, 23),
    (0x7fffdc, 23), (0x7fffdd, 23), (0x7fffde, 23), (0xffffeb, 24), (0x7fffdf, 23),
    (0xffffec, 24), (0xffffed, 24), (0x3fffd7, 22), (0x7fffe0, 23), (0xffffee, 24),
    (0x7fffe1, 23), (0x7fffe2, 23), (0x7fffe3, 23), (0x7fffe4, 23), (0x1fffdc, 21),
    (0x3fffd8, 22), (0x7fffe5, 23), (0x3fffd9, 22), (0x7fffe6, 23), (0x7fffe7, 23),
    (0xffffef, 24), (0x3fffda, 22), (0x1fffdd, 21), (0xfffe9, 20), (0x3fffdb, 22), (0x3fffdc, 22),
    (0x7fffe8, 23), (0x7fffe9, 23), (0x1fffde, 21), (0x7fffea, 23), (0x3fffdd, 22),
    (0x3fffde, 22), (0xfffff0, 24), (0x1fffdf, 21), (0x3fffdf, 22), (0x7fffeb, 23),
    (0x7fffec, 23), (0x1fffe0, 21), (0x1fffe1, 21), (0x3fffe0, 22), (0x1fffe2, 21),
    (0x7fffed, 23), (0x3fffe1, 22), (0x7fffee, 23), (0x7fffef, 23), (0xfffea, 20), (0x3fffe2, 22),
    (0x3fffe3, 22), (0x3fffe4, 22), (0x7ffff0, 23), (0x3fffe5, 22), (0x3fffe6, 22),
    (0x7ffff1, 23), (0x3ffffe0, 26), (0x3ffffe1, 26), (0xfffeb, 20), (0x7fff1, 19),
    (0x3fffe7, 22), (0x7ffff2, 23), (0x3fffe8, 22), (0x1ffffec, 25), (0x3ffffe2, 26),
    (0x3ffffe3, 26), (0x3ffffe4, 26), (0x7ffffde, 27), (0x7ffffdf, 27), (0x3ffffe5, 26),
    (0xfffff1, 24), (0x1ffffed, 25), (0x7fff2, 19), (0x1fffe3, 21), (0x3ffffe6, 26),
    (0x7ffffe0, 27), (0x7ffffe1, 27), (0x3ffffe7, 26), (0x7ffffe2, 27), (0xfffff2, 24),
    (0x1fffe4, 21), (0x1fffe5, 21), (0x3ffffe8, 26), (0x3ffffe9, 26), (0xffffffd, 28),
    (0x7ffffe3, 27), (0x7ffffe4, 27), (0x7ffffe5, 27), (0xfffec, 20), (0xfffff3, 24),
    (0xfffed, 20), (0x1fffe6, 21), (0x3fffe9, 22), (0x1fffe7, 21), (0x1fffe8, 21), (0x7ffff3, 23),
    (0x3fffea, 22), (0x3fffeb, 22), (0x1ffffee, 25), (0x1ffffef, 25), (0xfffff4, 24),
    (0xfffff5, 24), (0x3ffffea, 26), (0x7ffff4, 23), (0x3ffffeb, 26), (0x7ffffe6, 27),
    (0x3ffffec, 26), (0x3ffffed, 26), (0x7ffffe7, 27), (0x7ffffe8, 27), (0x7ffffe9, 27),
    (0x7ffffea, 27), (0x7ffffeb, 27), (0xffffffe, 28), (0x7ffffec, 27), (0x7ffffed, 27),
    (0x7ffffee, 27), (0x7ffffef, 27), (0x7fffff0, 27), (0x3ffffee, 26), (0x3fffffff, 30) ]

/-! ## Encoding -/

def huffmanEncodedSize (input : Bytes) : Nat :=
  ((input.map fun ch => (kTable.getD ch.toNat (0, 0)).2).sum + 7) / 8

/-- The bits in `buf` that are not written yet are its `held` lowest ones. -/
structure BitWriter where
  out : Bytes := []
  buf : Nat := 0
  held : Nat := 0

namespace BitWriter

/-- `while (held >= 8)`; a code has at most 30 bits. -/
def flush : (fuel : Nat) → BitWriter → BitWriter
  | 0, w => w
  | fuel + 1, w =>
    if w.held ≥ 8 then
      flush fuel { w with
        out := w.out ++ [ofNat ((w.buf >>> (w.held - 8)) &&& 0xFF)]
        held := w.held - 8 }
    else w

def put (w : BitWriter) (ch : UInt8) : BitWriter :=
  let (code, bits) := kTable.getD ch.toNat (0, 0)
  flush 5 { w with buf := ((w.buf <<< bits) % 2 ^ 64) ||| code, held := w.held + bits }

/-- The last byte is filled with ones. -/
def finish (w : BitWriter) : Bytes :=
  if w.held > 0 then
    let pad := 8 - w.held
    w.out ++ [ofNat (((w.buf <<< pad) ||| (2 ^ pad - 1)) &&& 0xFF)]
  else w.out

end BitWriter

def huffmanEncode (input : Bytes) : Bytes := (input.foldl BitWriter.put {}).finish

/-! ## Decoding -/

/-- A node has a symbol if a code ends there. -/
inductive HuffTree where
  | absent
  | node (symbol : Option Nat) (zero one : HuffTree)

namespace HuffTree

def step : HuffTree → Bool → HuffTree
  | absent, _ => absent
  | node _ zero one, bit => if bit then one else zero

def symbol : HuffTree → Option Nat
  | absent => none
  | node symbol _ _ => symbol

/-- The nodes on the way are made where they are absent. -/
def insert (sym : Nat) : (path : List Bool) → HuffTree → HuffTree
  | [], t => node (some sym) (t.step false) (t.step true)
  | true :: path, t => node t.symbol (t.step false) (insert sym path (t.step true))
  | false :: path, t => node t.symbol (insert sym path (t.step false)) (t.step true)

end HuffTree

/-- The lowest `bits` bits of a code, the most significant one first. -/
def codeBits (code bits : Nat) : List Bool :=
  (range bits).map fun i => code.testBit (bits - 1 - i)

def tree : HuffTree :=
  kTable.zipIdx.foldl (fun t e => t.insert e.2 (codeBits e.1.1 e.1.2))
    (.node none .absent .absent)

/-- The bits after the last symbol may only be padding: fewer than eight, and all ones. -/
def isPadding (path : List Bool) : Bool := path.length ≤ 7 && path.all id

/-- The loop over the bits: `path` leads from the root to `node`. -/
def decodeBits (node : HuffTree) (path : List Bool) (out : Bytes) : List Bool → Option Bytes
  | [] => if isPadding path then some out else none
  | bit :: bits =>
    match node.step bit with
    | .absent => none
    | .node (some sym) _ _ =>
      -- The end of string must not occur.
      if sym = 256 then none else decodeBits tree [] (out ++ [ofNat sym]) bits
    | .node none zero one => decodeBits (.node none zero one) (path ++ [bit]) out bits

def byteBits (b : UInt8) : List Bool := codeBits b.toNat 8

def huffmanDecode (input : Bytes) : Option Bytes := decodeBits tree [] [] (input.flatMap byteBits)

/-! ## Bits -/

theorem codeBits_length (code bits : Nat) : (codeBits code bits).length = bits := by
  simp [codeBits]

theorem codeBits_mod (x : Nat) (h : n ≤ m) : codeBits (x % 2 ^ m) n = codeBits x n := by
  refine map_congr_left fun i hi => ?_
  have hlt := mem_range.mp hi
  rw [Nat.testBit_mod_two_pow, decide_eq_true (by omega), Bool.true_and]

theorem codeBits_inj (hx : x < 2 ^ n) (hy : y < 2 ^ n) (h : codeBits x n = codeBits y n) : x = y := by
  refine Nat.eq_of_testBit_eq fun j => ?_
  by_cases hj : j < n
  · have hbit := map_inj_left.mp h (n - 1 - j) (mem_range.mpr (by omega))
    rwa [show n - 1 - (n - 1 - j) = j by omega] at hbit
  · have hle : 2 ^ n ≤ 2 ^ j := Nat.pow_le_pow_right (by decide) (Nat.not_lt.mp hj)
    rw [Nat.testBit_lt_two_pow (hx.trans_le hle), Nat.testBit_lt_two_pow (hy.trans_le hle)]

theorem codeBits_add (x a b : Nat) : codeBits x (a + b) = codeBits (x >>> b) a ++ codeBits x b := by
  unfold codeBits
  rw [range_add, map_append, map_map]
  congr 1
  · refine map_congr_left fun i hi => ?_
    have hlt := mem_range.mp hi
    rw [Nat.testBit_shiftRight]
    congr 1
    omega
  · refine map_congr_left fun i hi => ?_
    rw [Function.comp_apply]
    congr 1
    omega

theorem codeBits_shiftLeft_or (high a : Nat) (hlow : low < 2 ^ b) :
    codeBits (high <<< b ||| low) (a + b) = codeBits high a ++ codeBits low b := by
  have hhigh : (high <<< b ||| low) >>> b = high := by
    rw [Nat.shiftRight_or_distrib, Nat.shiftLeft_shiftRight, Nat.shiftRight_eq_div_pow,
      Nat.div_eq_of_lt hlow, Nat.or_zero]
  have hrest : (high <<< b ||| low) % 2 ^ b = low := by
    rw [Nat.or_mod_two_pow, Nat.shiftLeft_eq, Nat.mul_mod_left, Nat.zero_or, Nat.mod_eq_of_lt hlow]
  rw [codeBits_add, hhigh, ← codeBits_mod (high <<< b ||| low) (Nat.le_refl b), hrest]

theorem byteBits_ofNat (x : Nat) : byteBits (ofNat (x &&& 0xFF)) = codeBits x 8 := by
  rw [byteBits, toNat_ofNat', codeBits_mod _ (Nat.le_refl 8),
    Nat.and_two_pow_sub_one_eq_mod x 8, codeBits_mod _ (Nat.le_refl 8)]

instance decidableForallByte (p : UInt8 → Prop) [DecidablePred p] : Decidable (∀ b, p b) :=
  decidable_of_iff (∀ n : Fin 256, p (ofNat n.1))
    ⟨fun h b => b.ofNat_toNat ▸ h ⟨b.toNat, b.toNat_lt⟩, fun h _ => h _⟩

theorem length_flatMap_byteBits (w : Bytes) : (w.flatMap byteBits).length = 8 * w.length := by
  rw [length_flatMap, map_congr_left fun b _ => codeBits_length b.toNat 8, map_const',
    sum_replicate_nat, Nat.mul_comm]

theorem flatMap_byteBits_inj {w w' : Bytes} (h : w.flatMap byteBits = w'.flatMap byteBits) :
    w = w' := by
  have hlength : w.length = w'.length := by
    have hbits := congrArg length h
    rw [length_flatMap_byteBits, length_flatMap_byteBits] at hbits
    omega
  induction w generalizing w' with
  | nil => exact (eq_nil_of_length_eq_zero hlength.symm).symm
  | cons b w ih =>
    cases w' with
    | nil => cases hlength
    | cons b' w' =>
      obtain ⟨hb, hw⟩ := append_inj h ((codeBits_length ..).trans (codeBits_length ..).symm)
      rw [UInt8.toNat_inj.mp (codeBits_inj b.toNat_lt b'.toNat_lt hb), ih hw (Nat.succ.inj hlength)]

/-! ## Sizes -/

theorem length_decodeBits (h : decodeBits node path out bits = some out') :
    out'.length ≤ out.length + bits.length := by
  induction bits generalizing node path out with
  | nil =>
    unfold decodeBits at h
    split at h
    · cases h
      exact Nat.le_add_right _ _
    · cases h
  | cons bit bits ih =>
    unfold decodeBits at h
    rw [length_cons]
    split at h
    · cases h
    · split at h
      · cases h
      · have hle := ih h
        rw [length_append, length_singleton] at hle
        omega
    · have hle := ih h
      omega

theorem length_huffmanDecode (h : huffmanDecode input = some out) :
    out.length ≤ 8 * input.length := by
  have hle := length_decodeBits h
  rwa [length_flatMap_byteBits, length_nil, Nat.zero_add] at hle

/-! ## What is encoded is decoded -/

def codeWord (sym : Nat) : List Bool :=
  codeBits (kTable.getD sym (0, 0)).1 (kTable.getD sym (0, 0)).2

def codeWords (s : Bytes) : List Bool := s.flatMap fun ch => codeWord ch.toNat

namespace BitWriter

/-- The bits that were put, whether they are written yet or not. -/
def bits (w : BitWriter) : List Bool := w.out.flatMap byteBits ++ codeBits w.buf w.held

theorem bits_flush (fuel : Nat) (w : BitWriter) : (flush fuel w).bits = w.bits := by
  induction fuel generalizing w with
  | zero => rfl
  | succ fuel ih =>
    unfold flush
    split
    next hge =>
      rw [ih, bits, bits, flatMap_append, flatMap_singleton, byteBits_ofNat,
        append_assoc, ← codeBits_add, Nat.add_sub_cancel' hge]
    · rfl

theorem held_flush (h : w.held < 8 * (fuel + 1)) :
    (flush fuel w).held < 8 := by
  induction fuel generalizing w with
  | zero => exact h
  | succ fuel ih =>
    unfold flush
    split
    · exact ih (Nat.sub_lt_left_of_lt_add ‹_› (by omega))
    next hlt => exact Nat.not_le.mp hlt

theorem put_spec (h : w.held < 8) (ch : UInt8) :
    (put w ch).bits = w.bits ++ codeWord ch.toNat ∧ (put w ch).held < 8 := by
  have hall : ∀ b : UInt8, (kTable.getD b.toNat (0, 0)).1 < 2 ^ (kTable.getD b.toNat (0, 0)).2 ∧
      (kTable.getD b.toNat (0, 0)).2 ≤ 30 := by decide +kernel
  have hentry := hall ch
  unfold put codeWord
  generalize kTable.getD ch.toNat (0, 0) = entry at hentry ⊢
  obtain ⟨code, size⟩ := entry
  obtain ⟨hcode, hsize⟩ := hentry
  have hbuf : w.buf <<< size % 2 ^ 64 = (w.buf % 2 ^ (64 - size)) <<< size := by
    rw [Nat.shiftLeft_eq, Nat.shiftLeft_eq, ← Nat.mul_mod_mul_right, ← Nat.pow_add,
      Nat.sub_add_cancel (by omega)]
  refine ⟨?_, held_flush (by dsimp only; omega)⟩
  rw [bits_flush, bits, bits, hbuf, codeBits_shiftLeft_or _ _ hcode, codeBits_mod _ (by omega),
    append_assoc]

theorem finish_spec (h : w.held < 8) :
    ∃ k < 8, (finish w).flatMap byteBits = w.bits ++ replicate k true := by
  unfold finish bits
  split
  next hpos =>
    have hones : ∀ k : Fin 8, codeBits (2 ^ k.1 - 1) k.1 = replicate k.1 true := by decide
    have hlast := codeBits_shiftLeft_or w.buf w.held
      (Nat.sub_one_lt (Nat.two_pow_pos (8 - w.held)).ne')
    rw [Nat.add_sub_cancel' h.le, hones ⟨8 - w.held, by omega⟩] at hlast
    refine ⟨8 - w.held, by omega, ?_⟩
    rw [flatMap_append, flatMap_singleton, byteBits_ofNat, hlast, append_assoc]
  next hzero =>
    refine ⟨0, by decide, ?_⟩
    rw [Nat.eq_zero_of_not_pos hzero]
    simp [codeBits]

end BitWriter

theorem bits_huffmanEncode (s : Bytes) : ∃ k < 8,
    (huffmanEncode s).flatMap byteBits = codeWords s ++ replicate k true := by
  have hfold (w : BitWriter) (hw : w.held < 8) : (s.foldl BitWriter.put w).bits =
      w.bits ++ codeWords s ∧ (s.foldl BitWriter.put w).held < 8 := by
    induction s generalizing w with
    | nil => exact ⟨(append_nil _).symm, hw⟩
    | cons ch s ih =>
      obtain ⟨hbits, hheld⟩ := BitWriter.put_spec hw ch
      obtain ⟨hrest, hlast⟩ := ih _ hheld
      refine ⟨?_, hlast⟩
      rw [foldl_cons, hrest, hbits, codeWords, codeWords, flatMap_cons, append_assoc]
  obtain ⟨hbits, hheld⟩ := hfold {} (by decide)
  obtain ⟨k, hk, hfinish⟩ := BitWriter.finish_spec hheld
  exact ⟨k, hk, hfinish.trans (congrArg (· ++ _) hbits)⟩

/-! ## The tree -/

namespace HuffTree

/-- Every symbol stands at the end of its code word. -/
def labelled (path : List Bool) : HuffTree → Bool
  | absent => true
  | node symbol zero one =>
    symbol.all (fun sym => sym ≤ 256 && codeWord sym = path) &&
      (zero.labelled (path ++ [false]) && one.labelled (path ++ [true]))

theorem labelled_step {t : HuffTree} (h : t.labelled path = true) (bit : Bool) :
    (t.step bit).labelled (path ++ [bit]) = true := by
  cases t with
  | absent => rfl
  | node symbol zero one =>
    simp only [labelled, Bool.and_eq_true] at h
    cases bit with
    | false => exact h.2.1
    | true => exact h.2.2

/-- The symbol at the end of a path, if it is the only one there. -/
def find? : HuffTree → List Bool → Option Nat
  | _, [] => none
  | t, bit :: bits =>
    match t.step bit with
    | absent => none
    | node (some sym) _ _ => if bits = [] then some sym else none
    | node none zero one => (node none zero one).find? bits

end HuffTree

theorem labelled_tree : tree.labelled [] = true := by decide +kernel

theorem find?_codeWord (h : sym ≤ 256) : tree.find? (codeWord sym) = some sym := by
  have hall : ∀ n : Fin 257, tree.find? (codeWord n.1) = some n.1 := by decide +kernel
  exact hall ⟨sym, Nat.lt_succ_of_le h⟩

theorem decodeBits_append (hfind : node.find? bits = some sym) (hsym : sym ≠ 256)
    (path : List Bool) (out : Bytes) (rest : List Bool) :
    decodeBits node path out (bits ++ rest) =
      decodeBits tree [] (out ++ [ofNat sym]) rest := by
  induction bits generalizing node path with
  | nil => cases hfind
  | cons bit bits ih =>
    unfold HuffTree.find? at hfind
    rw [cons_append, decodeBits]
    split at hfind
    · cases hfind
    · split at hfind
      next hnil =>
        cases hfind
        rw [hnil]
        exact if_neg hsym
      · cases hfind
    · exact ih hfind _

/-- The front of a code word leads to no symbol. -/
theorem decodeBits_of_front (hfind : node.find? (bits ++ more) = some sym) (hmore : more ≠ [])
    (path : List Bool) (out : Bytes) :
    decodeBits node path out bits = if isPadding (path ++ bits) then some out else none := by
  induction bits generalizing node path with
  | nil => rw [append_nil, decodeBits]
  | cons bit bits ih =>
    rw [cons_append, HuffTree.find?] at hfind
    rw [decodeBits, append_cons path bit bits]
    split at hfind
    · cases hfind
    · rw [if_neg (append_ne_nil_of_right_ne_nil _ hmore)] at hfind
      cases hfind
    · exact ih hfind _

theorem decodeBits_codeWords (hk : k < 8) (s out : Bytes) :
    decodeBits tree [] out (codeWords s ++ replicate k true) = some (out ++ s) := by
  induction s generalizing out with
  | nil =>
    have heos : replicate k true ++ replicate (30 - k) true = codeWord 256 := by
      rw [replicate_append_replicate, Nat.add_sub_cancel' (by omega)]
      decide +kernel
    have hfront := decodeBits_of_front (heos.symm ▸ find?_codeWord (Nat.le_refl 256))
      (by simp; omega) [] out
    have hpad : ∀ k : Fin 8, isPadding (replicate k.1 true) = true := by decide
    rw [nil_append, hpad ⟨k, hk⟩] at hfront
    rw [append_nil]
    exact hfront
  | cons ch s ih =>
    have hne : ch.toNat ≠ 256 := Nat.ne_of_lt ch.toNat_lt
    rw [codeWords, flatMap_cons, append_assoc,
      decodeBits_append (find?_codeWord ch.toNat_lt.le) hne, UInt8.ofNat_toNat,
      append_cons out ch s]
    exact ih _

theorem bits_of_decodeBits (hnode : node.labelled path = true)
    (h : decodeBits node path out bits = some out') : ∃ s, ∃ k < 8, out' = out ++ s ∧
      path ++ bits = codeWords s ++ replicate k true := by
  induction bits generalizing node path out with
  | nil =>
    unfold decodeBits at h
    split at h
    next hpad =>
      cases h
      rw [isPadding, Bool.and_eq_true, decide_eq_true_eq, all_eq_true] at hpad
      refine ⟨[], path.length, by omega, (append_nil _).symm, ?_⟩
      rw [append_nil]
      exact eq_replicate_of_mem hpad.2
    · cases h
  | cons bit bits ih =>
    unfold decodeBits at h
    have hstep := HuffTree.labelled_step hnode bit
    rw [append_cons]
    split at h
    · cases h
    next sym _ _ heq =>
      split at h
      · cases h
      next hsym =>
        rw [heq, HuffTree.labelled, Option.all_some, Bool.and_eq_true, Bool.and_eq_true,
          decide_eq_true_eq, decide_eq_true_eq] at hstep
        obtain ⟨⟨hle, hword⟩, -⟩ := hstep
        have hlt : sym < 2 ^ 8 := by omega
        obtain ⟨s, k, hk, rfl, hrest⟩ := ih labelled_tree h
        refine ⟨ofNat sym :: s, k, hk, append_assoc .., ?_⟩
        rw [codeWords, flatMap_cons, toNat_ofNat_of_lt' hlt, hword, append_assoc _ _
          (replicate k true)]
        exact congrArg _ hrest
    next heq =>
      rw [heq] at hstep
      exact ih hstep h

theorem length_codeWords (s : Bytes) :
    (codeWords s).length = (s.map fun ch => (kTable.getD ch.toNat (0, 0)).2).sum := by
  rw [codeWords, length_flatMap]
  exact congrArg _ (map_congr_left fun ch _ => codeBits_length ..)

theorem huffmanDecode_huffmanEncode (s : Bytes) : huffmanDecode (huffmanEncode s) = some s := by
  obtain ⟨k, hk, hbits⟩ := bits_huffmanEncode s
  rw [huffmanDecode, hbits]
  exact decodeBits_codeWords hk s []

/-- **The Huffman codec.** What is accepted is what would be written: the bits behind the last code
word are ones, fewer than eight. -/
theorem huffman_codec (s : Bytes) :
    huffmanDecode (huffmanEncode s) = some s ∧ (huffmanEncode s).length = huffmanEncodedSize s ∧
      ∀ w, huffmanDecode w = some s → huffmanEncode s = w ∧
        ∃ k < 8, w.flatMap byteBits = codeWords s ++ replicate k true := by
  obtain ⟨k, hk, hbits⟩ := bits_huffmanEncode s
  have hlength := congrArg length hbits
  rw [length_flatMap_byteBits, length_append, length_replicate] at hlength
  refine ⟨huffmanDecode_huffmanEncode s, ?_, fun w h => ?_⟩
  · rw [huffmanEncodedSize, ← length_codeWords]
    omega
  · obtain ⟨s', k', hk', rfl, hw⟩ := bits_of_decodeBits labelled_tree h
    have hlength' := congrArg length hw
    rw [nil_append, length_flatMap_byteBits, length_append,
      length_replicate] at hlength'
    obtain rfl : k = k' := by omega
    exact ⟨flatMap_byteBits_inj (hbits.trans hw.symm), k, hk, hw⟩

end Spaznet.Codec
