import Mathlib.Algebra.Order.Ring.Nat
import Mathlib.Data.List.Basic
import Mathlib.Data.List.DropRight
import Mathlib.Data.List.TakeDrop

/-!
# Text on the wire

The string helpers of the HTTP/1.x parser, over bytes. Character classes are those of the C locale.
-/

namespace Spaznet.Http

open List

abbrev Bytes := List UInt8

instance Bytes.lawfulBEq : LawfulBEq Bytes := List.instLawfulBEq

def ascii (s : String) : Bytes := s.toUTF8.data.toList

namespace Ascii

def tab : UInt8 := 0x09
def lf : UInt8 := 0x0a
def cr : UInt8 := 0x0d
def space : UInt8 := 0x20
def comma : UInt8 := 0x2c
def colon : UInt8 := 0x3a
def semicolon : UInt8 := 0x3b

end Ascii

open Ascii

def crlf : Bytes := [cr, lf]

/-! ## Characters -/

def isDigit (c : UInt8) : Bool := 0x30 ≤ c ∧ c ≤ 0x39

def isAlnum (c : UInt8) : Bool :=
  isDigit c || (0x41 ≤ c ∧ c ≤ 0x5a) || (0x61 ≤ c ∧ c ≤ 0x7a)

/-- What may not stand in a field value: it would end the line or the string. -/
def isBreak (c : UInt8) : Bool := c = cr ∨ c = lf ∨ c = 0

def isTokenChar (c : UInt8) : Bool := isAlnum c || c ∈ ascii "!#$%&'*+-.^_`|~"

def isOws (c : UInt8) : Bool := c = space ∨ c = tab

def lower (c : UInt8) : UInt8 := if 0x41 ≤ c ∧ c ≤ 0x5a then c + 0x20 else c

/-! ## Strings -/

def toLower (str : Bytes) : Bytes := str.map lower

/-- `ci_equal` of the handler and `ascii_iequals` of the header lookup. -/
def ciEqual (lhs rhs : Bytes) : Bool := toLower lhs = toLower rhs

def trimOws (str : Bytes) : Bytes := (str.dropWhile isOws).rdropWhile isOws

/-- What repeated calls of `std::getline` read: a delimiter at the end opens no further line. -/
def getlines (delim : UInt8) (str : Bytes) : List Bytes :=
  let pieces := str.splitOn delim
  if pieces.getLast? = some [] then pieces.dropLast else pieces

def dropCr (line : Bytes) : Bytes := if line.getLast? = some cr then line.dropLast else line

def members (value : Bytes) : List Bytes := (value.splitOn comma).map trimOws

/-- The last coding that a Transfer-Encoding value names, in lower case. -/
def lastCoding (value : Bytes) : Bytes :=
  (((getlines comma (toLower value)).map trimOws).filter (· ≠ [])).getLast?.getD []

/-! ## Numbers -/

/-- The loop of `parse_uint64`. -/
def parseDigits : Nat → Bytes → Option Nat
  | result, [] => some result
  | result, c :: rest =>
    if !isDigit c then none
    else
      let digit := c.toNat - 0x30
      if result > (2 ^ 64 - 1 - digit) / 10 then none else parseDigits (result * 10 + digit) rest

def parseUint64 (value : Bytes) : Option Nat := if value = [] then none else parseDigits 0 value

def digitsFrom (n : Nat) (digits : Bytes) : Nat :=
  digits.foldl (fun n c => n * 10 + (c.toNat - 0x30)) n

/-- The number that a non-empty run of digits denotes, however large. -/
def decimal (value : Bytes) : Option Nat :=
  if value ≠ [] ∧ value.all isDigit then some (digitsFrom 0 value) else none

/-! ## Laws -/

theorem span_ne_spec {str : Bytes} (h : str.span (· ≠ sep) = (front, b :: rest)) :
    str = front ++ sep :: rest ∧ sep ∉ front := by
  rw [span_eq_takeWhile_dropWhile, Prod.mk.injEq] at h
  obtain ⟨hfront, hback⟩ := h
  have hb := head?_dropWhile_not (· ≠ sep) str
  rw [hback] at hb
  have hsep : b = sep := by simpa using hb
  refine ⟨?_, ?_⟩
  · rw [← hsep, ← hfront, ← hback, takeWhile_append_dropWhile]
  · intro hmem
    rw [← hfront] at hmem
    simpa using mem_takeWhile_imp hmem

theorem span_ne_append (h : sep ∉ front) (rest : Bytes) :
    (front ++ sep :: rest).span (· ≠ sep) = (front, sep :: rest) := by
  have hall : ∀ c ∈ front, decide (c ≠ sep) = true := by
    intro c hc
    rw [decide_eq_true_eq]
    rintro rfl
    exact h hc
  rw [span_eq_takeWhile_dropWhile, takeWhile_append_of_pos hall,
    dropWhile_append_of_pos hall, takeWhile_cons_of_neg (by simp),
    dropWhile_cons_of_neg (by simp), append_nil]

theorem getlines_cons (h : delim ∉ line) (rest : Bytes) :
    getlines delim (line ++ delim :: rest) = line :: getlines delim rest := by
  have hne := splitOn_ne_nil delim rest
  unfold getlines
  dsimp only
  rw [splitOn_append_cons_self_of_not_mem h, getLast?_cons_of_ne_nil hne,
    dropLast_cons_of_ne_nil hne]
  split
  · rfl
  · rfl

theorem dropCr_append (line : Bytes) : dropCr (line ++ [cr]) = line := by
  unfold dropCr
  rw [getLast?_concat, if_pos rfl, dropLast_concat]

theorem ciEqual_trans_ne (h : ciEqual key lhs = true) (hne : toLower lhs ≠ toLower rhs) :
    ciEqual key rhs = false := by
  unfold ciEqual at h ⊢
  rw [of_decide_eq_true h]
  exact decide_eq_false hne

theorem members_ne_nil (value : Bytes) : members value ≠ [] := by
  unfold members
  rw [ne_eq, map_eq_nil_iff]
  exact splitOn_ne_nil comma value

theorem trimOws_cons (h : isOws c = true) (str : Bytes) : trimOws (c :: str) = trimOws str := by
  unfold trimOws
  rw [dropWhile_cons_of_pos h]

theorem members_join (value value' : Bytes) :
    members (value ++ comma :: space :: value') = members value ++ members value' := by
  unfold members
  rw [splitOn_append_cons_self, map_append, splitOn_cons_eq_if_modifyHead,
    if_neg (by decide)]
  obtain ⟨piece, pieces, heq⟩ := exists_cons_of_ne_nil (splitOn_ne_nil comma value')
  rw [heq, modifyHead_cons, map_cons, map_cons, trimOws_cons (by decide)]

theorem trimOws_eq_self (h : ∀ c ∈ value, isOws c = false) : trimOws value = value := by
  have hfront : value.dropWhile isOws = value := by
    cases value with
    | nil => rfl
    | cons c rest => rw [dropWhile_cons_of_neg (by simp [h c])]
  unfold trimOws
  rw [hfront, rdropWhile_eq_self_iff]
  intro hl
  simp [h _ (getLast_mem hl)]

theorem exists_mem_splitOn {value : Bytes} (hc : c ≠ delim) :
    (∃ piece ∈ value.splitOn delim, c ∈ piece) ↔ c ∈ value := by
  induction value with
  | nil => simp
  | cons b rest ih =>
    obtain ⟨piece, pieces, heq⟩ := exists_cons_of_ne_nil (splitOn_ne_nil delim rest)
    rw [heq] at ih
    rw [splitOn_cons_eq_if_modifyHead, heq, mem_cons, ← ih]
    split
    next hdelim =>
      have hne : c ≠ b := fun hcb => hc (hcb.trans (eq_of_beq hdelim))
      simp [hne]
    next => simp [or_assoc]

theorem splitOn_pieces (delim : UInt8) (str : Bytes) :
    ∃ piece pieces, str.splitOn delim = piece :: pieces ∧ piece <+: str ∧
      ∀ p ∈ pieces, p <:+: str := by
  induction str with
  | nil => exact ⟨[], [], rfl, prefix_rfl, forall_mem_nil _⟩
  | cons b rest ih =>
    obtain ⟨piece, pieces, heq, hfirst, hothers⟩ := ih
    have htail (p : Bytes) (hp : p <:+: rest) : p <:+: b :: rest := infix_cons hp
    rw [splitOn_cons_eq_if_modifyHead, heq]
    split
    · refine ⟨[], piece :: pieces, rfl, nil_prefix, fun p hp => htail p ?_⟩
      obtain rfl | hp := mem_cons.mp hp
      · exact hfirst.isInfix
      · exact hothers p hp
    · exact ⟨b :: piece, pieces, rfl, cons_prefix_cons.mpr ⟨rfl, hfirst⟩,
        fun p hp => htail p (hothers p hp)⟩

theorem infix_of_mem_getlines (h : piece ∈ getlines delim str) : piece <:+: str := by
  have hmem : piece ∈ str.splitOn delim := by
    unfold getlines at h
    dsimp only at h
    split at h
    · exact dropLast_subset _ h
    · exact h
  obtain ⟨first, pieces, heq, hfirst, hothers⟩ := splitOn_pieces delim str
  rw [heq] at hmem
  obtain rfl | hmem := mem_cons.mp hmem
  · exact hfirst.isInfix
  · exact hothers piece hmem

theorem trimOws_isInfix (str : Bytes) : trimOws str <:+: str :=
  (List.rdropWhile_prefix _ _).isInfix.trans (dropWhile_suffix _).isInfix

theorem infix_of_lastCoding (hne : lastCoding value ≠ []) :
    lastCoding value <:+: toLower value := by
  unfold lastCoding at hne ⊢
  cases hlast : (((getlines comma (toLower value)).map trimOws).filter (· ≠ [])).getLast? with
  | none =>
    rw [hlast] at hne
    exact absurd rfl hne
  | some coding =>
    have hmem := (mem_filter.mp (mem_of_getLast? hlast)).1
    obtain ⟨piece, hpiece, rfl⟩ := mem_map.mp hmem
    exact (trimOws_isInfix piece).trans (infix_of_mem_getlines hpiece)

theorem mem_dropWhile {str : Bytes} (hc : c ∈ str) (hp : p c = false) : c ∈ str.dropWhile p := by
  rw [← takeWhile_append_dropWhile (p := p) (l := str), mem_append] at hc
  obtain hc | hc := hc
  · have hpos := mem_takeWhile_imp hc
    rw [hp] at hpos
    cases hpos
  · exact hc

theorem mem_trimOws (hc : c ∈ str) (hows : isOws c = false) : c ∈ trimOws str := by
  have hfront := mem_dropWhile hc hows
  unfold trimOws List.rdropWhile
  rw [mem_reverse]
  exact mem_dropWhile (mem_reverse.mpr hfront) hows

theorem mem_of_mem_trimOws (hc : c ∈ trimOws str) : c ∈ str :=
  (trimOws_isInfix str).subset hc

theorem mem_of_mem_members (hm : m ∈ members value) (hc : c ∈ m) (hcomma : c ≠ comma) :
    c ∈ value := by
  obtain ⟨piece, hpiece, rfl⟩ := mem_map.mp hm
  exact (exists_mem_splitOn hcomma).mp ⟨piece, hpiece, mem_of_mem_trimOws hc⟩

theorem exists_mem_members (hc : c ∈ value) (hcomma : c ≠ comma) (hows : isOws c = false) :
    ∃ m ∈ members value, c ∈ m := by
  obtain ⟨piece, hpiece, hmem⟩ := (exists_mem_splitOn hcomma).mpr hc
  exact ⟨trimOws piece, mem_map_of_mem hpiece, mem_trimOws hmem hows⟩

theorem isDigit_ne (h : isDigit c = true) (hd : isDigit d = false) : c ≠ d := by
  rintro rfl
  rw [h] at hd
  cases hd

theorem isOws_of_isDigit (h : isDigit c = true) : isOws c = false :=
  decide_eq_false (not_or.mpr ⟨isDigit_ne h (by decide), isDigit_ne h (by decide)⟩)

theorem members_digits (h : value.all isDigit = true) : members value = [value] := by
  rw [all_eq_true] at h
  have hcomma : comma ∉ value := fun hmem => isDigit_ne (h _ hmem) (by decide) rfl
  unfold members
  rw [splitOn_eq_singleton hcomma, map_singleton,
    trimOws_eq_self fun c hc => isOws_of_isDigit (h c hc)]

theorem le_digitsFrom (digits : Bytes) (n : Nat) : n ≤ digitsFrom n digits := by
  induction digits generalizing n with
  | nil => exact le_rfl
  | cons c rest ih => exact le_trans (by omega) (ih (n * 10 + (c.toNat - 0x30)))

theorem parseDigits_eq (value : Bytes) (result : Nat) (hr : result < 2 ^ 64) :
    parseDigits result value =
      if value.all isDigit ∧ digitsFrom result value < 2 ^ 64 then some (digitsFrom result value)
      else none := by
  induction value generalizing result with
  | nil => exact (if_pos ⟨rfl, hr⟩).symm
  | cons c rest ih =>
    unfold parseDigits
    have hstep : digitsFrom result (c :: rest) =
        digitsFrom (result * 10 + (c.toNat - 0x30)) rest := rfl
    cases hc : isDigit c with
    | false => simp [hc]
    | true =>
      have hd : c.toNat - 0x30 ≤ 9 := by
        have h := UInt8.le_iff_toNat_le.mp (of_decide_eq_true hc).2
        have h9 : (0x39 : UInt8).toNat = 0x39 := rfl
        omega
      rw [all_cons, hc, if_neg (by decide)]
      dsimp only
      split
      next hbig =>
        have hge := le_digitsFrom rest (result * 10 + (c.toNat - 0x30))
        exact (if_neg fun h => by omega).symm
      next hfit => exact ih _ (by omega)

theorem parseUint64_eq_some : parseUint64 value = some n ↔ decimal value = some n ∧ n < 2 ^ 64 := by
  unfold parseUint64 decimal
  by_cases hnil : value = []
  · simp [hnil]
  rw [if_neg hnil, parseDigits_eq value 0 (by decide)]
  constructor
  · intro h
    split at h
    next hv =>
      cases h
      exact ⟨if_pos ⟨hnil, hv.1⟩, hv.2⟩
    · cases h
  · rintro ⟨h, hn⟩
    split at h
    next hv =>
      cases h
      exact if_pos ⟨hv.2, hn⟩
    · cases h

theorem decimal_eq_some (h : decimal value = some n) : value.all isDigit = true :=
  (Option.ite_none_right_eq_some.mp h).1.2

end Spaznet.Http
