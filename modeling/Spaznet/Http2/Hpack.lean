import Mathlib.Data.List.Sort
import Spaznet.Codec.Literal
import Spaznet.Http2.Frame

/-!
# HPACK

The compression of header fields as `HPACK` has it: the static table, no dynamic one, and literals
that are written without the Huffman code. The decoder reads one representation after another. One
that names no entry of the table is dropped, and one that cannot be read ends the block.
-/

namespace Spaznet.Http2.HPACK

open Codec List Option
open Http (Bytes Headers ascii)

def staticTable : List (Bytes × Bytes) :=
  [ ("", ""), (":authority", ""), (":method", "GET"), (":method", "POST"), (":path", "/"),
    (":path", "/index.html"), (":scheme", "http"), (":scheme", "https"), (":status", "200"),
    (":status", "204"), (":status", "206"), (":status", "304"), (":status", "400"),
    (":status", "404"), (":status", "500"), ("accept-charset", ""),
    ("accept-encoding", "gzip, deflate"), ("accept-language", ""), ("accept-ranges", ""),
    ("accept", ""), ("access-control-allow-origin", ""), ("age", ""), ("allow", ""),
    ("authorization", ""), ("cache-control", ""), ("content-disposition", ""),
    ("content-encoding", ""), ("content-language", ""), ("content-length", ""),
    ("content-location", ""), ("content-range", ""), ("content-type", ""), ("cookie", ""),
    ("date", ""), ("etag", ""), ("expect", ""), ("expires", ""), ("from", ""), ("host", ""),
    ("if-match", ""), ("if-modified-since", ""), ("if-none-match", ""), ("if-range", ""),
    ("if-unmodified-since", ""), ("last-modified", ""), ("link", ""), ("location", ""),
    ("max-forwards", ""), ("proxy-authenticate", ""), ("proxy-authorization", ""), ("range", ""),
    ("referer", ""), ("refresh", ""), ("retry-after", ""), ("server", ""), ("set-cookie", ""),
    ("strict-transport-security", ""), ("transfer-encoding", ""), ("user-agent", ""),
    ("vary", ""), ("via", ""), ("www-authenticate", "") ].map fun e => (ascii e.1, ascii e.2)

/-! ## Decoding -/

def decodePrefixInt (prefixBits : Nat) (data : Bytes) : Option (Nat × Bytes) :=
  if prefixBits < 1 ∨ prefixBits > 8 then none else readPrefixInt 32 28 prefixBits data

def decodeString (data : Bytes) : Option (Bytes × Bytes) := readString 32 28 7 data

inductive Name where
  | index (nameIndex : Nat)
  | text (name : Bytes)
  deriving DecidableEq

inductive Representation where
  | indexed (index : Nat)
  | literal (name : Name) (value : Bytes)
  | sizeUpdate (newSize : Nat)
  deriving DecidableEq

def decodeName (nameIndex : Nat) (data : Bytes) : Option (Name × Bytes) :=
  if nameIndex = 0 then (decodeString data).map fun name => (.text name.1, name.2)
  else some (.index nameIndex, data)

def decodeLiteral (prefixBits : Nat) (data : Bytes) : Option (Representation × Bytes) :=
  (decodePrefixInt prefixBits data).bind fun nameIndex =>
    (decodeName nameIndex.1 nameIndex.2).bind fun name =>
      (decodeString name.2).map fun value => (.literal name.1 value.1, value.2)

/-- The branches of the loop, by the byte in front. -/
def decodeBranch (b : UInt8) (data : Bytes) : Option (Representation × Bytes) :=
  if b &&& 0x80 ≠ 0 then (decodePrefixInt 7 data).map fun index => (.indexed index.1, index.2)
  else if b &&& 0xC0 = 0x40 then decodeLiteral 6 data
  else if b &&& 0xE0 = 0x20 then
    (decodePrefixInt 5 data).map fun newSize => (.sizeUpdate newSize.1, newSize.2)
  else if b &&& 0xF0 = 0x00 ∨ b &&& 0xF0 = 0x10 then decodeLiteral 4 data
  else none

def decodeRepresentation (data : Bytes) : Option (Representation × Bytes) :=
  data.head?.bind fun b => decodeBranch b data

/-- An index outside the table gives the empty name. -/
def Name.bytes : Name → Bytes
  | .index nameIndex => (staticTable[nameIndex]?).elim [] Prod.fst
  | .text name => name

def Representation.field? : Representation → Option (Bytes × Bytes)
  | .indexed index => if index = 0 then none else staticTable[index]?
  | .literal name value => if name.bytes = [] then none else some (name.bytes, value)
  | .sizeUpdate _ => none

/-- `headers[name] = value` for the fields in their order. -/
def store (headers : Headers) (fields : List (Bytes × Bytes)) : Headers :=
  fields.foldl (fun headers field => put headers field.1 field.2) headers

def decodeLoop : (fuel : Nat) → Headers → Bytes → Headers
  | 0, headers, _ => headers
  | fuel + 1, headers, data =>
    match decodeRepresentation data with
    | none => headers
    | some (part, data) => decodeLoop fuel (store headers part.field?.toList) data

def decodeHeaders (data : Bytes) : Headers := decodeLoop data.length [] data

/-! ## Encoding -/

def encodePrefixInt (highBits : UInt8) (prefixBits value : Nat) : Bytes :=
  writePrefixInt highBits prefixBits value

def encodeString (s : Bytes) : Bytes := encodePrefixInt 0x00 7 s.length ++ s

/-- Lexicographic order, as `std::sort` compares pairs. -/
def fieldLe (a b : Bytes × Bytes) : Prop := a.1 < b.1 ∨ (a.1 = b.1 ∧ a.2 ≤ b.2)

instance fieldLe.decidable : DecidableRel fieldLe := fun a b =>
  inferInstanceAs (Decidable (a.1 < b.1 ∨ (a.1 = b.1 ∧ a.2 ≤ b.2)))

/-- The first entry of the table that satisfies `p`; entry 0 is not one. -/
def tableIndex? (p : Bytes × Bytes → Bool) : Option Nat :=
  ((staticTable.drop 1).findIdx? p).map (· + 1)

def encodeField (field : Bytes × Bytes) : Bytes :=
  match tableIndex? (· = field) with
  | some i => encodePrefixInt 0x80 7 i
  | none => match tableIndex? (·.1 = field.1) with
    | some i => encodePrefixInt 0x00 4 i ++ encodeString field.2
    | none => 0x00 :: (encodeString field.1 ++ encodeString field.2)

def isPseudo (field : Bytes × Bytes) : Bool := field.1.head? = some Http.Ascii.colon

def encodeHeaders (headers : Headers) : Bytes :=
  let pseudo := headers.filter isPseudo
  let regular := headers.filter fun field => !isPseudo field
  (pseudo.insertionSort fieldLe ++ regular.insertionSort fieldLe).flatMap encodeField

def codec : Hpack := { encodeHeaders, decodeHeaders }

/-! ## Representations in a row -/

theorem local_decodePrefixInt (prefixBits : Nat) : Local (decodePrefixInt prefixBits) := by
  unfold decodePrefixInt
  split
  · exact local_none
  · exact local_readPrefixInt 32 28 prefixBits

theorem progresses_decodePrefixInt (prefixBits : Nat) :
    Progresses (decodePrefixInt prefixBits) := by
  unfold decodePrefixInt
  split
  · exact progresses_none
  · exact progresses_readPrefixInt 32 28 prefixBits

theorem local_decodeString : Local decodeString := local_readString 32 28 7

theorem local_decodeName (nameIndex : Nat) : Local (decodeName nameIndex) := by
  unfold decodeName
  split
  · exact local_decodeString.map Name.text
  · exact local_some (Name.index nameIndex)

theorem local_decodeValue (name : Name) :
    Local fun data =>
      (decodeString data).map fun value => (Representation.literal name value.1, value.2) :=
  local_decodeString.map (Representation.literal name)

theorem local_decodeLiteral (prefixBits : Nat) : Local (decodeLiteral prefixBits) :=
  (local_decodePrefixInt prefixBits).bind fun nameIndex =>
    (local_decodeName nameIndex).bind local_decodeValue

theorem progresses_decodeLiteral (prefixBits : Nat) : Progresses (decodeLiteral prefixBits) :=
  (progresses_decodePrefixInt prefixBits).bind fun nameIndex =>
    (local_decodeName nameIndex).bind local_decodeValue

theorem local_decodeBranch (b : UInt8) : Local (decodeBranch b) := by
  unfold decodeBranch
  split
  · exact (local_decodePrefixInt 7).map Representation.indexed
  split
  · exact local_decodeLiteral 6
  split
  · exact (local_decodePrefixInt 5).map Representation.sizeUpdate
  split
  · exact local_decodeLiteral 4
  · exact local_none

theorem progresses_decodeBranch (b : UInt8) : Progresses (decodeBranch b) := by
  unfold decodeBranch
  split
  · exact (progresses_decodePrefixInt 7).map Representation.indexed
  split
  · exact progresses_decodeLiteral 6
  split
  · exact (progresses_decodePrefixInt 5).map Representation.sizeUpdate
  split
  · exact progresses_decodeLiteral 4
  · exact progresses_none

def intake : Intake UInt8 Bytes Representation :=
  Local.intake (d := decodeRepresentation) (.peek local_decodeBranch progresses_decodeBranch)
    (.peek progresses_decodeBranch)

theorem decodeLoop_eq (h : data.length ≤ fuel) (headers : Headers) :
    decodeLoop fuel headers data = store headers ((intake.items data).filterMap (·.field?)) := by
  induction fuel generalizing headers data with
  | zero =>
    obtain rfl := eq_nil_of_length_eq_zero (Nat.le_zero.mp h)
    rfl
  | succ fuel ih =>
    unfold decodeLoop
    split
    next hnone =>
      rw [Intake.items_of_none (I := intake) hnone]
      rfl
    next part rest hsome =>
      have hlt : rest.length < data.length := intake.bound_lt hsome
      rw [Intake.items_of_some (I := intake) hsome, ih (by omega), filterMap_cons]
      cases part.field? <;> rfl

/-- The headers are the fields of the representations that can be read. -/
theorem decodeHeaders_eq (data : Bytes) :
    decodeHeaders data = store [] ((intake.items data).filterMap (·.field?)) :=
  decodeLoop_eq (Nat.le_refl _) []

/-! ## What is encoded is decoded -/

theorem decodePrefixInt_encodePrefixInt (hn : 1 ≤ n ∧ n ≤ 8) (hclear : Clear highBits n)
    (hvalue : value < 2 ^ 32) (rest : Bytes) :
    decodePrefixInt n (encodePrefixInt highBits n value ++ rest) = some (value, rest) := by
  rw [decodePrefixInt, if_neg (by omega)]
  exact readPrefixInt_writePrefixInt (by decide) hclear hvalue rest

theorem decodeString_encodeString (hs : s.length < 2 ^ 32) (rest : Bytes) :
    decodeString (encodeString s ++ rest) = some (s, rest) :=
  readString_writePrefixInt (by decide) (by decide +kernel) (by decide +kernel) hs
    (show readText false s = some s from rfl) rest

theorem decodeBranch_of_literal (h : b &&& 0xF0 = 0) (data : Bytes) :
    decodeBranch b data = decodeLiteral 4 data := by
  have hall : ∀ b : UInt8, b &&& 0xF0 = 0 →
      ¬ b &&& 0x80 ≠ 0 ∧ b &&& 0xC0 ≠ 0x40 ∧ b &&& 0xE0 ≠ 0x20 := by decide +kernel
  obtain ⟨h₁, h₂, h₃⟩ := hall b h
  rw [decodeBranch, if_neg h₁, if_neg h₂, if_neg h₃, if_pos (.inl h)]

theorem decodeRepresentation_literal (hindex : nameIndex < 2 ^ 32)
    (hname : ∀ rest, decodeName nameIndex (text ++ rest) = some (name, rest))
    (hvalue : value.length < 2 ^ 32) (rest : Bytes) :
    decodeRepresentation
        (encodePrefixInt 0x00 4 nameIndex ++ (text ++ (encodeString value ++ rest))) =
      some (.literal name value, rest) := by
  have hbits : ∀ v : Fin (2 ^ 4), (0x00 ||| UInt8.ofNat v.1) &&& 0xF0 = 0 := by decide +kernel
  obtain ⟨v, hv, hhead⟩ := head?_writePrefixInt 0x00 4 nameIndex
    (text ++ (encodeString value ++ rest))
  rw [decodeRepresentation, encodePrefixInt, hhead, bind_some,
    decodeBranch_of_literal (hbits ⟨v, hv⟩), decodeLiteral, ← encodePrefixInt,
    decodePrefixInt_encodePrefixInt (by decide) (by decide +kernel) hindex, bind_some, hname,
    bind_some, decodeString_encodeString hvalue, map_some]

theorem decodeRepresentation_indexed (h : index < 2 ^ 32) (rest : Bytes) :
    decodeRepresentation (encodePrefixInt 0x80 7 index ++ rest) = some (.indexed index, rest) := by
  have hbits : ∀ v : Fin (2 ^ 7), (0x80 ||| UInt8.ofNat v.1) &&& 0x80 ≠ 0 := by decide +kernel
  obtain ⟨v, hv, hhead⟩ := head?_writePrefixInt 0x80 7 index rest
  rw [decodeRepresentation, encodePrefixInt, hhead, bind_some, decodeBranch,
    if_pos (hbits ⟨v, hv⟩), ← encodePrefixInt,
    decodePrefixInt_encodePrefixInt (by decide) (by decide +kernel) h, map_some]

theorem tableIndex?_eq_some (h : tableIndex? p = some i) :
    0 < i ∧ i < staticTable.length ∧ ∃ e, staticTable[i]? = some e ∧ p e = true := by
  obtain ⟨j, hj, rfl⟩ := map_eq_some_iff.mp h
  obtain ⟨hlt, hp, -⟩ := findIdx?_eq_some_iff_getElem.mp hj
  have hentry := getElem?_eq_getElem hlt
  rw [getElem?_drop, Nat.add_comm] at hentry
  exact ⟨Nat.succ_pos j, (List.getElem?_eq_some_iff.mp hentry).1, _, hentry, hp⟩

theorem decodeRepresentation_encodeField (hne : field.1 ≠ [])
    (hname : field.1.length < 2 ^ 32) (hvalue : field.2.length < 2 ^ 32) (rest : Bytes) :
    ∃ part, decodeRepresentation (encodeField field ++ rest) = some (part, rest) ∧
      part.field? = some field := by
  obtain ⟨name, value⟩ := field
  unfold encodeField
  split
  next i hpair =>
    obtain ⟨hpos, hlt, e, he, heq⟩ := tableIndex?_eq_some hpair
    obtain rfl := of_decide_eq_true heq
    exact ⟨.indexed i, decodeRepresentation_indexed (hlt.trans (by decide)) rest,
      (if_neg hpos.ne').trans he⟩
  split
  next i hfirst =>
    obtain ⟨hpos, hlt, e, he, heq⟩ := tableIndex?_eq_some hfirst
    have hbytes : (Name.index i).bytes = name := by
      rw [Name.bytes, he]
      exact of_decide_eq_true heq
    refine ⟨.literal (.index i) value, ?_, ?_⟩
    · have hindex (rest : Bytes) : decodeName i ([] ++ rest) = some (.index i, rest) :=
        if_neg hpos.ne'
      rw [append_assoc]
      exact (decodeRepresentation_literal (hlt.trans (by decide)) hindex hvalue rest :)
    · rw [Representation.field?, hbytes, if_neg hne]
  · have htext (rest : Bytes) :
        decodeName 0 (encodeString name ++ rest) = some (.text name, rest) := by
      rw [decodeName, if_pos rfl, decodeString_encodeString hname, map_some]
    refine ⟨.literal (.text name) value, ?_, if_neg hne⟩
    rw [cons_append, append_assoc]
    exact decodeRepresentation_literal (by decide) htext hvalue rest

/-- The map comes back, in the order of the fields. -/
theorem items_encodeFields
    (h : ∀ field ∈ fields, field.1 ≠ [] ∧ field.1.length < 2 ^ 32 ∧ field.2.length < 2 ^ 32) :
    (intake.items (fields.flatMap encodeField)).filterMap (·.field?) = fields := by
  induction fields with
  | nil => rfl
  | cons field fields ih =>
    obtain ⟨hfield, hfields⟩ := forall_mem_cons.mp h
    obtain ⟨part, hpart, hfield?⟩ := decodeRepresentation_encodeField hfield.1 hfield.2.1 hfield.2.2
      (fields.flatMap encodeField)
    rw [flatMap_cons, Intake.items_of_some (I := intake) hpart, filterMap_cons, hfield?,
      ih hfields]

theorem store_of_nodup (h : ((headers ++ fields).map Prod.fst).Nodup) :
    store headers fields = headers ++ fields := by
  induction fields generalizing headers with
  | nil => exact (append_nil _).symm
  | cons field fields ih =>
    rw [append_cons] at h ⊢
    have hnew : field.1 ∉ headers.map Prod.fst := by
      intro hmem
      rw [map_append, map_append] at h
      exact (nodup_append.mp (nodup_append.mp h).1).2.2 _ hmem _
        (mem_singleton_self _) rfl
    rw [← ih h, store, foldl_cons, put, if_neg hnew]
    rfl

/-- **Round trip of a header map.** A map is its fields in any order, one for each key. -/
theorem decode_encode_headers (m : Headers) (hkeys : (m.map Prod.fst).Nodup)
    (hm : ∀ field ∈ m, field.1 ≠ [] ∧ field.1.length < 2 ^ 32 ∧ field.2.length < 2 ^ 32) :
    (decodeHeaders (encodeHeaders m)).Perm m := by
  have hperm := ((perm_insertionSort fieldLe _).append (perm_insertionSort fieldLe _)).trans
    (filter_append_perm isPseudo m)
  unfold encodeHeaders
  dsimp only
  generalize insertionSort fieldLe _ ++ insertionSort fieldLe _ = fields at hperm ⊢
  have hkeys' : ((([] : Headers) ++ fields).map Prod.fst).Nodup := (hperm.map _).nodup_iff.mpr hkeys
  rw [decodeHeaders_eq, items_encodeFields fun field h => hm field (hperm.mem_iff.mp h),
    store_of_nodup hkeys']
  exact hperm

theorem decode_encode_headers_response :
    (decodeHeaders (encodeHeaders [(ascii "x-a", ascii "1"), (ascii ":status", ascii "200")])).Perm
      [(ascii "x-a", ascii "1"), (ascii ":status", ascii "200")] :=
  decode_encode_headers _ (by decide +kernel) (by decide +kernel)

end Spaznet.Http2.HPACK
