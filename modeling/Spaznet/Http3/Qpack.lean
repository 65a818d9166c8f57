import Spaznet.Codec.Literal

/-!
# QPACK

The compression of header fields as `qpack.cpp` has it: the static table only, and literals that are
written under the Huffman code. Unlike the decoder of HPACK, this one fails on every fault.
-/

namespace Spaznet.Http3

open Codec List Option UInt8
open Http (Bytes ascii)

abbrev HeaderList := List (Bytes × Bytes)

def kStatic : HeaderList :=
  [ (":authority", ""), (":path", "/"), ("age", "0"), ("content-disposition", ""),
    ("content-length", "0"), ("cookie", ""), ("date", ""), ("etag", ""),
    ("if-modified-since", ""), ("if-none-match", ""), ("last-modified", ""), ("link", ""),
    ("location", ""), ("referer", ""), ("set-cookie", ""), (":method", "CONNECT"),
    (":method", "DELETE"), (":method", "GET"), (":method", "HEAD"), (":method", "OPTIONS"),
    (":method", "POST"), (":method", "PUT"), (":scheme", "http"), (":scheme", "https"),
    (":status", "103"), (":status", "200"), (":status", "304"), (":status", "404"),
    (":status", "503"), ("accept", "*/*"), ("accept", "application/dns-message"),
    ("accept-encoding", "gzip, deflate, br"), ("accept-ranges", "bytes"),
    ("access-control-allow-headers", "cache-control"),
    ("access-control-allow-headers", "content-type"), ("access-control-allow-origin", "*"),
    ("cache-control", "max-age=0"), ("cache-control", "max-age=2592000"),
    ("cache-control", "max-age=604800"), ("cache-control", "no-cache"),
    ("cache-control", "no-store"), ("cache-control", "public, max-age=31536000"),
    ("content-encoding", "br"), ("content-encoding", "gzip"),
    ("content-type", "application/dns-message"), ("content-type", "application/javascript"),
    ("content-type", "application/json"), ("content-type", "application/x-www-form-urlencoded"),
    ("content-type", "image/gif"), ("content-type", "image/jpeg"), ("content-type", "image/png"),
    ("content-type", "text/css"), ("content-type", "text/html; charset=utf-8"),
    ("content-type", "text/plain"), ("content-type", "text/plain;charset=utf-8"),
    ("range", "bytes=0-"), ("strict-transport-security", "max-age=31536000"),
    ("strict-transport-security", "max-age=31536000; includesubdomains"),
    ("strict-transport-security", "max-age=31536000; includesubdomains; preload"),
    ("vary", "accept-encoding"), ("vary", "origin"), ("x-content-type-options", "nosniff"),
    ("x-xss-protection", "1; mode=block"), (":status", "100"), (":status", "204"),
    (":status", "206"), (":status", "302"), (":status", "400"), (":status", "403"),
    (":status", "421"), (":status", "425"), (":status", "500"), ("accept-language", ""),
    ("access-control-allow-credentials", "FALSE"), ("access-control-allow-credentials", "TRUE"),
    ("access-control-allow-headers", "*"), ("access-control-allow-methods", "get"),
    ("access-control-allow-methods", "get, post, options"),
    ("access-control-allow-methods", "options"),
    ("access-control-expose-headers", "content-length"),
    ("access-control-request-headers", "content-type"), ("access-control-request-method", "get"),
    ("access-control-request-method", "post"), ("alt-svc", "clear"), ("authorization", ""),
    ("content-security-policy", "script-src 'none'; object-src 'none'; base-uri 'none'"),
    ("early-data", "1"), ("expect-ct", ""), ("forwarded", ""), ("if-range", ""), ("origin", ""),
    ("purpose", "prefetch"), ("server", ""), ("timing-allow-origin", "*"),
    ("upgrade-insecure-requests", "1"), ("user-agent", ""), ("x-forwarded-for", ""),
    ("x-frame-options", "deny"),
    ("x-frame-options", "sameorigin") ].map fun e => (ascii e.1, ascii e.2)

/-! ## Encoding -/

def writeInt (value : Nat) (highBits : UInt8) (n : Nat) : Bytes := writePrefixInt highBits n value

def writeString (s : Bytes) (prefixBits : UInt8) (n : Nat) : Bytes :=
  let huff := huffmanEncode s
  writeInt huff.length (prefixBits ||| (1 <<< ofNat n)) n ++ huff

/-- The key of `by_pair`. -/
def pairKey (field : Bytes × Bytes) : Bytes := field.1 ++ [0x1f] ++ field.2

/-- The last index that was stored under the key. -/
def byPair (field : Bytes × Bytes) : Option Nat :=
  (kStatic.zipIdx.reverse.find? fun e => pairKey e.1 = pairKey field).map (·.2)

def byName (name : Bytes) : Option Nat := kStatic.findIdx? (·.1 = name)

def encodeFieldLine (field : Bytes × Bytes) : Bytes :=
  match byPair field with
  | some index => writeInt index 0xC0 6
  | none => match byName field.1 with
    | some index => writeInt index 0x50 4 ++ writeString field.2 0x00 7
    | none => writeString field.1 0x20 3 ++ writeString field.2 0x00 7

def qpackEncode (headers : HeaderList) : Bytes := 0x00 :: 0x00 :: headers.flatMap encodeFieldLine

/-! ## Decoding -/

def readInt (n : Nat) (buf : Bytes) : Option (Nat × Bytes) := readPrefixInt 64 63 n buf

def readString (n : Nat) (buf : Bytes) : Option (Bytes × Bytes) := Codec.readString 64 63 n buf

/-- The field lines, by the byte in front. The last two branches of the code are one here: the
dynamic table is not supported. -/
def decodeFieldLine (b : UInt8) (input : Bytes) : Option ((Bytes × Bytes) × Bytes) :=
  if b &&& 0x80 ≠ 0 then
    (readInt 6 input).bind fun index =>
      if b &&& 0x40 = 0 then none else (kStatic[index.1]?).map (·, index.2)
  else if b &&& 0x40 ≠ 0 then
    (readInt 4 input).bind fun index =>
      (readString 7 index.2).bind fun value =>
        if b &&& 0x10 = 0 then none
        else (kStatic[index.1]?).map fun entry => ((entry.1, value.1), value.2)
  else if b &&& 0x20 ≠ 0 then
    (readString 3 input).bind fun name =>
      (readString 7 name.2).map fun value => ((name.1, value.1), value.2)
  else none

def decodeFieldLines : (fuel : Nat) → Bytes → Option HeaderList
  | 0, _ => some []
  | fuel + 1, input =>
    match input with
    | [] => some []
    | b :: _ => match decodeFieldLine b input with
      | none => none
      | some (field, rest) => (decodeFieldLines fuel rest).map (field :: ·)

def qpackDecode (input : Bytes) : Option HeaderList :=
  (readInt 8 input).bind fun encInsertCount =>
    (readInt 7 encInsertCount.2).bind fun deltaBase =>
      if encInsertCount.1 ≠ 0 ∨ deltaBase.1 ≠ 0 then none
      else decodeFieldLines deltaBase.2.length deltaBase.2

/-! ## Sizes -/

def fieldsSize (fields : HeaderList) : Nat :=
  (fields.map fun field => field.1.length + field.2.length).sum

/-- The longest entry of the static table has 76 bytes. -/
def kMaxExpansion : Nat := 76

theorem size_kStatic (h : entry ∈ kStatic) : entry.1.length + entry.2.length ≤ kMaxExpansion := by
  have hall : ∀ entry ∈ kStatic, entry.1.length + entry.2.length ≤ kMaxExpansion := by
    decide +kernel
  exact hall entry h

theorem size_decodeFieldLine (h : decodeFieldLine b input = some (field, rest)) :
    field.1.length + field.2.length + kMaxExpansion * rest.length ≤
      kMaxExpansion * input.length := by
  have hexpands : kMaxExpansion = 76 := rfl
  rw [hexpands]
  unfold decodeFieldLine at h
  split at h
  · obtain ⟨⟨index, input'⟩, hindex, h⟩ := bind_eq_some_iff.mp h
    have hlt := progresses_readPrefixInt 64 63 6 hindex
    split at h
    · cases h
    obtain ⟨entry, hentry, heq⟩ := map_eq_some_iff.mp h
    cases heq
    have hsize := size_kStatic (mem_of_getElem? hentry)
    dsimp only at hlt ⊢
    omega
  split at h
  · obtain ⟨⟨index, input'⟩, hindex, h⟩ := bind_eq_some_iff.mp h
    have hlt := progresses_readPrefixInt 64 63 4 hindex
    obtain ⟨⟨value, rest'⟩, hvalue, h⟩ := bind_eq_some_iff.mp h
    have hle := length_readString hvalue
    split at h
    · cases h
    obtain ⟨entry, hentry, heq⟩ := map_eq_some_iff.mp h
    cases heq
    have hsize := size_kStatic (mem_of_getElem? hentry)
    dsimp only at hlt hle ⊢
    omega
  split at h
  · obtain ⟨⟨name, input'⟩, hname, h⟩ := bind_eq_some_iff.mp h
    have hle := length_readString hname
    obtain ⟨⟨value, rest'⟩, hvalue, heq⟩ := map_eq_some_iff.mp h
    cases heq
    have hle' := length_readString hvalue
    dsimp only at hle hle' ⊢
    omega
  · cases h

theorem size_decodeFieldLines (h : decodeFieldLines fuel input = some fields) :
    fieldsSize fields ≤ kMaxExpansion * input.length := by
  induction fuel generalizing input fields with
  | zero =>
    cases h
    exact Nat.zero_le _
  | succ fuel ih =>
    unfold decodeFieldLines at h
    split at h
    · cases h
      exact Nat.zero_le _
    split at h
    · cases h
    next field rest hline =>
      obtain ⟨more, hmore, rfl⟩ := map_eq_some_iff.mp h
      have hfirst := size_decodeFieldLine hline
      have hrest := ih hmore
      have hcons : fieldsSize (field :: more) =
          field.1.length + field.2.length + fieldsSize more := sum_cons
      omega

/-- Decoding makes a section longer by a factor at most. -/
theorem size_qpackDecode (h : qpackDecode input = some fields) :
    fieldsSize fields ≤ kMaxExpansion * input.length := by
  obtain ⟨⟨count, input₁⟩, hcount, h⟩ := bind_eq_some_iff.mp h
  obtain ⟨⟨base, input₂⟩, hbase, h⟩ := bind_eq_some_iff.mp h
  have hlt := progresses_readPrefixInt 64 63 8 hcount
  have hlt' := progresses_readPrefixInt 64 63 7 hbase
  split at h
  · cases h
  refine (size_decodeFieldLines h).trans (Nat.mul_le_mul_left _ ?_)
  dsimp only at hlt hlt' ⊢
  omega

/-! ## What is encoded is decoded -/

theorem readInt_writeInt (hclear : Clear highBits n) (hvalue : value < 2 ^ 64) (rest : Bytes) :
    readInt n (writeInt value highBits n ++ rest) = some (value, rest) :=
  readPrefixInt_writePrefixInt (by decide) hclear hvalue rest

theorem readString_writeString (hclear : Clear (prefixBits ||| (1 <<< ofNat n)) n)
    (hhuff : ∀ v : Fin (2 ^ n), decide ((prefixBits ||| (1 <<< ofNat n) ||| ofNat v.1) &&&
      (1 <<< ofNat n) ≠ 0) = true)
    (hs : (huffmanEncode s).length < 2 ^ 64) (rest : Bytes) :
    readString n (writeString s prefixBits n ++ rest) = some (s, rest) :=
  readString_writePrefixInt (by decide) hclear hhuff hs (huffmanDecode_huffmanEncode s) rest

/-- No entry of the table has the separator in its name or value. -/
theorem eq_of_pairKey (hentry : entry ∈ kStatic)
    (h : pairKey entry = pairKey field) : entry = field := by
  have hall : ∀ entry ∈ kStatic, 0x1f ∉ entry.1 ∧ 0x1f ∉ entry.2 := by decide +kernel
  obtain ⟨hname, hvalue⟩ := hall entry hentry
  obtain ⟨name, value⟩ := entry
  obtain ⟨name', value'⟩ := field
  simp only [pairKey, append_assoc, singleton_append] at h
  obtain ⟨more, hmore, htail⟩ | ⟨more, hmore, htail⟩ := append_eq_append_iff.mp h
  · cases more with
    | nil => simp_all
    | cons x more =>
      obtain ⟨rfl, hin⟩ := List.cons.inj htail
      exact absurd (hin ▸ by simp) hvalue
  · cases more with
    | nil => simp_all
    | cons x more =>
      obtain ⟨rfl, -⟩ := List.cons.inj htail
      exact absurd (hmore ▸ by simp) hname

theorem entry_of_byPair (h : byPair field = some index) : kStatic[index]? = some field := by
  obtain ⟨e, hfind, rfl⟩ := map_eq_some_iff.mp h
  have hmem := mem_reverse.mp (mem_of_find?_eq_some hfind)
  have hentry := mk_mem_zipIdx_iff_getElem?.mp hmem
  have hkey := find?_some hfind
  rw [hentry, eq_of_pairKey (mem_of_getElem? hentry) (of_decide_eq_true hkey)]

theorem entry_of_byName (h : byName name = some index) :
    ∃ entry, kStatic[index]? = some entry ∧ entry.1 = name := by
  obtain ⟨hlt, hp, -⟩ := findIdx?_eq_some_iff_getElem.mp h
  exact ⟨_, getElem?_eq_getElem hlt, of_decide_eq_true hp⟩

theorem index_lt (h : kStatic[index]? = some entry) : index < 2 ^ 64 :=
  (List.getElem?_eq_some_iff.mp h).1.trans (by decide)

theorem decodeFieldLine_encodeFieldLine (hname : (huffmanEncode field.1).length < 2 ^ 64)
    (hvalue : (huffmanEncode field.2).length < 2 ^ 64) (rest : Bytes) :
    ∃ b, (encodeFieldLine field ++ rest).head? = some b ∧
      decodeFieldLine b (encodeFieldLine field ++ rest) = some (field, rest) := by
  unfold encodeFieldLine
  split
  next index hpair =>
    have hentry := entry_of_byPair hpair
    have hbits : ∀ v : Fin (2 ^ 6), (0xC0 ||| ofNat v.1) &&& 0x80 ≠ 0 ∧
        (0xC0 ||| ofNat v.1) &&& 0x40 ≠ 0 := by decide +kernel
    obtain ⟨v, hv, hhead⟩ := head?_writePrefixInt 0xC0 6 index rest
    obtain ⟨h₁, h₂⟩ := hbits ⟨v, hv⟩
    refine ⟨_, hhead, ?_⟩
    rw [decodeFieldLine, if_pos h₁, readInt_writeInt (by decide +kernel) (index_lt hentry),
      bind_some, if_neg h₂, hentry, map_some]
  split
  next index hfirst =>
    obtain ⟨entry, hentry, heq⟩ := entry_of_byName hfirst
    have hbits : ∀ v : Fin (2 ^ 4), ¬ (0x50 ||| ofNat v.1) &&& 0x80 ≠ 0 ∧
        (0x50 ||| ofNat v.1) &&& 0x40 ≠ 0 ∧ (0x50 ||| ofNat v.1) &&& 0x10 ≠ 0 := by
      decide +kernel
    obtain ⟨v, hv, hhead⟩ := head?_writePrefixInt 0x50 4 index (writeString field.2 0x00 7 ++ rest)
    obtain ⟨h₁, h₂, h₃⟩ := hbits ⟨v, hv⟩
    rw [append_assoc]
    refine ⟨_, hhead, ?_⟩
    rw [decodeFieldLine, if_neg h₁, if_pos h₂,
      readInt_writeInt (by decide +kernel) (index_lt hentry), bind_some,
      readString_writeString (by decide +kernel) (by decide +kernel) hvalue, bind_some,
      if_neg h₃, hentry, map_some, heq]
  · have hbits : ∀ v : Fin (2 ^ 3), ¬ (0x28 ||| ofNat v.1) &&& 0x80 ≠ 0 ∧
        ¬ (0x28 ||| ofNat v.1) &&& 0x40 ≠ 0 ∧ (0x28 ||| ofNat v.1) &&& 0x20 ≠ 0 := by
      decide +kernel
    obtain ⟨v, hv, hhead⟩ := head?_writePrefixInt 0x28 3 (huffmanEncode field.1).length
      (huffmanEncode field.1 ++ (writeString field.2 0x00 7 ++ rest))
    obtain ⟨h₁, h₂, h₃⟩ := hbits ⟨v, hv⟩
    rw [← append_assoc] at hhead
    rw [append_assoc]
    refine ⟨_, hhead, ?_⟩
    rw [decodeFieldLine, if_neg h₁, if_neg h₂, if_pos h₃,
      readString_writeString (by decide +kernel) (by decide +kernel) hname, bind_some,
      readString_writeString (by decide +kernel) (by decide +kernel) hvalue, map_some]

theorem decodeFieldLines_encodeFieldLines
    (h : ∀ field ∈ headers, (huffmanEncode field.1).length < 2 ^ 64 ∧
      (huffmanEncode field.2).length < 2 ^ 64)
    (hfuel : (headers.flatMap encodeFieldLine).length ≤ fuel) :
    decodeFieldLines fuel (headers.flatMap encodeFieldLine) = some headers := by
  induction headers generalizing fuel with
  | nil => cases fuel <;> rfl
  | cons field headers ih =>
    obtain ⟨hfield, hrest⟩ := forall_mem_cons.mp h
    have hpos : 0 < (encodeFieldLine field).length := by
      obtain ⟨b, hhead, -⟩ := decodeFieldLine_encodeFieldLine hfield.1 hfield.2 []
      refine length_pos_iff.mpr fun hnil => ?_
      rw [hnil] at hhead
      cases hhead
    rw [flatMap_cons] at hfuel ⊢
    rw [length_append] at hfuel
    obtain ⟨fuel, rfl⟩ : ∃ n, fuel = n + 1 := ⟨fuel - 1, by omega⟩
    obtain ⟨b, hhead, hline⟩ := decodeFieldLine_encodeFieldLine hfield.1 hfield.2
      (headers.flatMap encodeFieldLine)
    obtain ⟨tail, htail⟩ := head?_eq_some_iff.mp hhead
    rw [htail] at hline ⊢
    rw [decodeFieldLines, hline]
    dsimp only
    rw [ih hrest (by omega), map_some]

/-- **Round trip of a header list.** -/
theorem qpack_decode_encode (h : HeaderList)
    (hsize : ∀ field ∈ h, (huffmanEncode field.1).length < 2 ^ 64 ∧
      (huffmanEncode field.2).length < 2 ^ 64) :
    qpackDecode (qpackEncode h) = some h :=
  decodeFieldLines_encodeFieldLines hsize (Nat.le_refl _)

theorem qpack_decode_encode_duplicate :
    qpackDecode (qpackEncode [(ascii "a", ascii "1"), (ascii "age", [0x1f]), (ascii "a", [])]) =
      some [(ascii "a", ascii "1"), (ascii "age", [0x1f]), (ascii "a", [])] :=
  qpack_decode_encode _ (by decide +kernel)

end Spaznet.Http3
