import Spaznet.Http.Extension
import Spaznet.Http.Response

/-!
# Reading what was written

Numbers, lines and field lists that were written are read back as they were, whatever stands behind
them.
-/

namespace Spaznet.Http

open Ascii List

/-! ## Numbers -/

theorem numeral_eq_if (hb : 1 < base) (n : Nat) :
    numeral base n = if n < base then [(Nat.digitChar n).toUInt8]
      else numeral base (n / base) ++ [(Nat.digitChar (n % base)).toUInt8] := by
  unfold numeral
  rw [Nat.toDigits_eq_if hb]
  split
  · rfl
  · rw [map_append]
    rfl

theorem numeral_ne_nil (base n : Nat) : numeral base n ≠ [] := by
  unfold numeral
  rw [ne_eq, map_eq_nil_iff]
  exact Nat.toDigits_ne_nil

theorem toNat_digitChar : ∀ d < 10, (Nat.digitChar d).toUInt8.toNat - 0x30 = d := by decide

theorem hexDigit_digitChar : ∀ d < 16, hexDigit (Nat.digitChar d).toUInt8 = some d := by decide

theorem all_numeral (hb : 1 < base) (h : ∀ d < base, p (Nat.digitChar d).toUInt8 = true) (n : Nat) :
    (numeral base n).all p = true := by
  induction n using Nat.strong_induction_on with
  | h n ih =>
    rw [numeral_eq_if hb]
    split
    next hlt => simp [h n hlt]
    next hge =>
      rw [all_append, ih (n / base) (Nat.div_lt_self (by omega) hb), all_cons,
        h _ (Nat.mod_lt n (by omega))]
      rfl

theorem isDigit_numeral (n : Nat) : (numeral 10 n).all isDigit = true :=
  all_numeral (by decide) (by decide) n

theorem isAlnum_numeral (n : Nat) : (numeral 16 n).all isAlnum = true :=
  all_numeral (by decide) (by decide) n

theorem digitsFrom_append (n : Nat) (digits : Bytes) (c : UInt8) :
    digitsFrom n (digits ++ [c]) = digitsFrom n digits * 10 + (c.toNat - 0x30) := by
  unfold digitsFrom
  rw [foldl_append]
  rfl

theorem digitsFrom_numeral (n : Nat) : digitsFrom 0 (numeral 10 n) = n := by
  induction n using Nat.strong_induction_on with
  | h n ih =>
    rw [numeral_eq_if (by decide)]
    split
    next hlt =>
      have hvalue := toNat_digitChar n hlt
      rw [digitsFrom, foldl_cons, foldl_nil]
      omega
    next hge =>
      have hvalue := toNat_digitChar _ (Nat.mod_lt n (by decide : 10 > 0))
      rw [digitsFrom_append, ih (n / 10) (by omega)]
      omega

theorem decimal_numeral (n : Nat) : decimal (numeral 10 n) = some n := by
  rw [decimal, if_pos ⟨numeral_ne_nil 10 n, isDigit_numeral n⟩, digitsFrom_numeral]

theorem parseHex_numeral (hn : n < 2 ^ 64) (sawDigit : Bool) (rest : Bytes) :
    parseHex 0 sawDigit (numeral 16 n ++ rest) = parseHex n true rest := by
  have hdigit : ∀ d < 16, (Nat.digitChar d).toUInt8 ≠ semicolon := by decide
  induction n using Nat.strong_induction_on generalizing sawDigit rest with
  | h n ih =>
    rw [numeral_eq_if (by decide)]
    split
    next hlt =>
      rw [singleton_append, parseHex, if_neg (hdigit n hlt), hexDigit_digitChar n hlt]
      dsimp only
      rw [if_neg (by omega), Nat.zero_add]
    next hge =>
      have hmod := Nat.mod_lt n (by decide : 16 > 0)
      rw [append_assoc, ih (n / 16) (by omega) (by omega), singleton_append, parseHex,
        if_neg (hdigit _ hmod), hexDigit_digitChar _ hmod]
      dsimp only
      rw [if_neg (by omega)]
      congr 1
      omega

theorem parseChunkSize_numeral (hn : n < 2 ^ 64) : parseChunkSize (numeral 16 n) = some n := by
  have h := parseHex_numeral hn false []
  rw [append_nil] at h
  exact h

theorem parseMagnitude_digits (hdigits : digits.all isDigit = true)
    (h : digitsFrom result digits ≤ 2 ^ 31) :
    parseMagnitude result digits = some (digitsFrom result digits) := by
  induction digits generalizing result with
  | nil => rfl
  | cons c rest ih =>
    rw [all_cons, Bool.and_eq_true] at hdigits
    have hstep : digitsFrom result (c :: rest) =
        digitsFrom (result * 10 + (c.toNat - 0x30)) rest := rfl
    have hle := le_digitsFrom rest (result * 10 + (c.toNat - 0x30))
    rw [parseMagnitude, hdigits.1]
    rw [if_neg (by decide), if_neg (by omega)]
    exact ih hdigits.2 h

theorem parseInt_numeral (h : n < 2 ^ 31) : parseInt (numeral 10 n) = some (n : Int) := by
  have hdigits := isDigit_numeral n
  have hsign : splitSign (numeral 10 n) = (false, numeral 10 n) := by
    unfold splitSign
    split
    next hnil => exact absurd hnil (numeral_ne_nil 10 n)
    next c rest hcons =>
      rw [hcons, all_cons, Bool.and_eq_true] at hdigits
      rw [if_neg (not_or.mpr ⟨isDigit_ne hdigits.1 (by decide), isDigit_ne hdigits.1 (by decide)⟩)]
  have hvalue := digitsFrom_numeral n
  unfold parseInt
  rw [hsign]
  dsimp only
  rw [if_neg (numeral_ne_nil 10 n), parseMagnitude_digits hdigits (by omega), hvalue,
    Option.bind_some, checkInt, if_neg Bool.false_ne_true, if_neg (by omega)]

/-! ## The header block -/

/-- A line without LF ends at the CRLF behind it. -/
theorem scanHeaderEnd_line (h : lf ∉ text) (i : Nat) (rest : Bytes) :
    scanHeaderEnd false i (text ++ cr :: lf :: rest) =
      scanHeaderEnd true (i + text.length + 2) rest := by
  induction text generalizing i with
  | nil =>
    rfl
  | cons c text ih =>
    rw [mem_cons, not_or] at h
    obtain ⟨b, tail, hnext, hb⟩ : ∃ b tail, text ++ cr :: lf :: rest = b :: tail ∧ b ≠ lf := by
      cases text with
      | nil => exact ⟨cr, _, rfl, by decide⟩
      | cons b text => exact ⟨b, _, rfl, fun hb => h.2 (hb ▸ mem_cons_self)⟩
    have hstep : scanHeaderEnd false i (c :: b :: tail) = scanHeaderEnd false (i + 1) (b :: tail) := by
      rw [scanHeaderEnd, if_neg fun hcrlf => hb hcrlf.2]
      split
      · rfl
      · rfl
    rw [cons_append, hnext, hstep, ← hnext, ih h.2, length_cons]
    congr 1
    omega

theorem scanHeaderEnd_field (hne : text ≠ []) (hcr : cr ∉ text) (hlf : lf ∉ text) (i : Nat)
    (rest : Bytes) :
    scanHeaderEnd true i (text ++ cr :: lf :: rest) =
      scanHeaderEnd true (i + text.length + 2) rest := by
  obtain ⟨c, text, rfl⟩ := exists_cons_of_ne_nil hne
  rw [mem_cons, not_or] at hcr hlf
  obtain ⟨b, tail, hnext⟩ : ∃ b tail, text ++ cr :: lf :: rest = b :: tail := by
    cases text with
    | nil | cons b text => exact ⟨_, _, rfl⟩
  have hstep : scanHeaderEnd true i (c :: b :: tail) = scanHeaderEnd false (i + 1) (b :: tail) := by
    rw [scanHeaderEnd, if_neg fun hcrlf => hcr.1 hcrlf.1.symm,
      if_pos ⟨Ne.symm hcr.1, Ne.symm hlf.1⟩]
  rw [cons_append, hnext, hstep, ← hnext, scanHeaderEnd_line hlf.2, length_cons]
  congr 1
  omega

structure Headers.Writable (fields : Headers) : Prop where
  names : ∀ e ∈ fields, isValidFieldName e.1 = true
  values : ∀ e ∈ fields, isValidFieldValue e.2 = true

namespace Headers.Writable

variable {e : Bytes × Bytes} {fields : Headers}

theorem head (h : Writable (e :: fields)) :
    isValidFieldName e.1 = true ∧ isValidFieldValue e.2 = true :=
  ⟨h.names e mem_cons_self, h.values e mem_cons_self⟩

theorem tail (h : Writable (e :: fields)) : Writable fields :=
  ⟨fun e he => h.names e (mem_cons_of_mem _ he),
    fun e he => h.values e (mem_cons_of_mem _ he)⟩

end Headers.Writable

theorem not_mem_fieldLine (hname : isValidFieldName e.1 = true)
    (hvalue : isValidFieldValue e.2 = true) (hc : isBreak c = true) : c ∉ fieldLine e := by
  obtain ⟨htoken, hsep⟩ : isTokenChar c = false ∧ c ∉ ascii ": " := by
    rw [isBreak, decide_eq_true_eq] at hc
    obtain rfl | rfl | rfl := hc
    all_goals decide
  unfold fieldLine
  rw [mem_append, mem_append, not_or, not_or]
  refine ⟨⟨not_mem_of_isValidFieldName hname htoken, hsep⟩, fun hmem => ?_⟩
  rw [isValidFieldValue, all_eq_true] at hvalue
  have hnot := hvalue c hmem
  rw [hc] at hnot
  cases hnot

theorem readField_fieldLine (h : isValidFieldName e.1 = true) :
    readField (fieldLine e) = some (e.1, trimOws e.2) := by
  have hline : fieldLine e = e.1 ++ colon :: (space :: e.2) := by
    unfold fieldLine
    rw [append_assoc]
    rfl
  rw [hline, readField_append h, trimOws_cons (by decide)]

theorem fieldLine_ne_nil (e : Bytes × Bytes) : fieldLine e ≠ [] := by
  unfold fieldLine
  intro h
  rw [append_eq_nil_iff, append_eq_nil_iff] at h
  exact absurd h.1.2 (by decide)

theorem fieldText_cons (e : Bytes × Bytes) (fields : Headers) (rest : Bytes) :
    fieldText (e :: fields) ++ rest = fieldLine e ++ cr :: lf :: (fieldText fields ++ rest) := by
  unfold fieldText
  rw [flatMap_cons, append_assoc, append_assoc]
  rfl

theorem scanHeaderEnd_fieldText (h : Headers.Writable fields) (i : Nat) :
    scanHeaderEnd true i (fieldText fields ++ crlf) = some (i + (fieldText fields).length + 2) := by
  induction fields generalizing i with
  | nil => rfl
  | cons e fields ih =>
    have hcr := not_mem_fieldLine h.head.1 h.head.2 (c := cr) (by decide)
    have hlf := not_mem_fieldLine h.head.1 h.head.2 (c := lf) (by decide)
    have hlen : (fieldText (e :: fields)).length =
        (fieldLine e).length + 2 + (fieldText fields).length := by
      have := congrArg List.length (fieldText_cons e fields [])
      simp only [length_append, length_cons] at this
      omega
    rw [fieldText_cons, scanHeaderEnd_field (fieldLine_ne_nil e) hcr hlf, ih h.tail]
    congr 1
    omega

theorem getlines_fieldText (h : Headers.Writable fields) :
    getlines lf (fieldText fields ++ crlf) =
      fields.map (fun e => fieldLine e ++ [cr]) ++ [[cr]] := by
  induction fields with
  | nil => decide
  | cons e fields ih =>
    have hlf : lf ∉ fieldLine e ++ [cr] := by
      rw [mem_append, not_or]
      exact ⟨not_mem_fieldLine h.head.1 h.head.2 (by decide), by decide⟩
    have hline : fieldLine e ++ cr :: lf :: (fieldText fields ++ crlf) =
        fieldLine e ++ [cr] ++ lf :: (fieldText fields ++ crlf) := by
      rw [append_assoc]
      rfl
    rw [fieldText_cons, hline, getlines_cons hlf, ih h.tail, map_cons, cons_append]

def trimField (e : Bytes × Bytes) : Bytes × Bytes := (e.1, trimOws e.2)

theorem parseHeaderLines_fieldText (h : Headers.Writable fields)
    (hkeys : ((headers ++ fields).map Prod.fst).Nodup) (hcount : n + fields.length ≤ kMaxHeaders) :
    parseHeaderLines n (fields.map (fun e => fieldLine e ++ [cr]) ++ [[cr]]) headers =
      some (headers ++ fields.map trimField) := by
  induction fields generalizing n headers with
  | nil =>
    rw [map_nil, map_nil, append_nil]
    exact if_pos rfl
  | cons e fields ih =>
    rw [length_cons] at hcount
    have hnew : e.1 ∉ headers.map Prod.fst := by
      rw [map_append, nodup_append] at hkeys
      exact fun hmem => hkeys.2.2 _ hmem _ mem_cons_self rfl
    have hkeys' : ((headers ++ [trimField e] ++ fields).map Prod.fst).Nodup := by
      rw [map_append] at hkeys
      rw [append_assoc, map_append]
      exact hkeys
    rw [map_cons, cons_append, parseHeaderLines, dropCr_append,
      if_neg (fieldLine_ne_nil e), if_neg (by omega), parseHeaderField,
      readField_fieldLine h.head.1, Option.map_some]
    dsimp only
    rw [Headers.store_of_not_mem hnew]
    refine (ih h.tail hkeys' (by omega)).trans ?_
    rw [append_assoc, singleton_append, map_cons]

/-! ## Chunks -/

theorem exists_cons_append_crlf (text rest : Bytes) :
    ∃ b tail, text ++ crlf ++ rest = b :: tail := by
  cases text with
  | nil | cons b text => exact ⟨_, _, rfl⟩

theorem takeLine_append_crlf (h : IsLine text) (hlen : scanned + text.length ≤ kChunkLineMax + 1)
    (rest : Bytes) : takeLine scanned (text ++ crlf ++ rest) = .line text rest := by
  induction text generalizing scanned with
  | nil => exact if_pos ⟨rfl, rfl⟩
  | cons c text ih =>
    rw [length_cons] at hlen
    have htail : IsLine text := fun hinfix => h (infix_cons hinfix)
    obtain ⟨b, tail, hnext⟩ := exists_cons_append_crlf text rest
    have hmid : ¬ (c = cr ∧ b = lf) := by
      rintro ⟨rfl, rfl⟩
      cases text with
      | nil => cases hnext
      | cons b text =>
        cases hnext
        exact h (prefix_append crlf _).isInfix
    rw [cons_append, cons_append, hnext, takeLine, if_neg hmid, if_neg (by omega),
      ← hnext, ih htail (by omega)]

theorem isLine_of_not_mem (h : lf ∉ text) : IsLine text := by
  intro hinfix
  have hmem : lf ∈ text ++ [cr] := hinfix.subset (by decide)
  rw [mem_append] at hmem
  exact hmem.elim h (by decide)

/-! ## The head of a response -/

/-- The texts of the head keep to its lines, and the head to the limits of the parser. -/
structure HTTPResponse.HeadFits (response : HTTPResponse) (fields : Headers) : Prop where
  version : space ∉ response.version ∧ lf ∉ response.version
  reason : lf ∉ response.reasonPhrase
  count : fields.length ≤ kMaxHeaders
  size : (response.head fields).length ≤ kMaxHeaderBytes

section Head

variable {response : HTTPResponse} {fields : Headers}

theorem head_eq (response : HTTPResponse) (fields : Headers) :
    response.head fields = response.statusLine ++ cr :: lf :: (fieldText fields ++ crlf) := by
  unfold HTTPResponse.head
  rw [append_assoc, append_assoc]
  rfl

theorem intText_eq (h : 0 ≤ n) : intText n = numeral 10 n.toNat := by
  obtain ⟨k, rfl⟩ := Int.eq_ofNat_of_zero_le h
  rfl

theorem lf_not_mem_statusLine (h : response.HeadFits fields) (hcode : 0 ≤ response.statusCode) :
    lf ∉ response.statusLine := by
  have hdigits := isDigit_numeral response.statusCode.toNat
  rw [all_eq_true] at hdigits
  unfold HTTPResponse.statusLine
  rw [intText_eq hcode]
  simp only [mem_append, mem_cons, not_or]
  exact ⟨⟨by decide, h.version.2⟩, by decide,
    fun hmem => isDigit_ne (hdigits _ hmem) (by decide) rfl, by decide, h.reason⟩

theorem findHeaderEnd_head (hfits : response.HeadFits fields) (hcode : 0 ≤ response.statusCode)
    (hfields : fields.Writable) (rest : Bytes) :
    findHeaderEnd (response.head fields ++ rest) kMaxHeaderBytes =
      .found (response.head fields).length := by
  have hscan : scanHeaderEnd false 0 (response.head fields) =
      some (response.head fields).length := by
    rw [head_eq, scanHeaderEnd_line (lf_not_mem_statusLine hfits hcode),
      scanHeaderEnd_fieldText hfields]
    simp only [length_append, length_cons]
    congr 1
    simp only [crlf, length_cons, length_nil]
    omega
  have hfind : findHeaderEnd (response.head fields) kMaxHeaderBytes =
      .found (response.head fields).length := by
    unfold findHeaderEnd
    rw [take_of_length_le hfits.size, hscan]
  exact ((findHeaderEnd_append _ rest _).resolve_right fun h => nomatch h.1.symm.trans hfind).trans
    hfind

theorem parseStatusLine_statusLine (hversion : space ∉ response.version)
    (hcode : 0 ≤ response.statusCode) (hint : response.statusCode < 2 ^ 31) :
    parseStatusLine response.statusLine =
      some { version := response.version, statusCode := response.statusCode,
             reasonPhrase := response.reasonPhrase } := by
  have hspace : space ∉ numeral 10 response.statusCode.toNat := by
    have hdigits := isDigit_numeral response.statusCode.toNat
    rw [all_eq_true] at hdigits
    exact fun hmem => isDigit_ne (hdigits _ hmem) (by decide) rfl
  have hdrop : response.statusLine.drop 5 = response.version ++ space ::
      (numeral 10 response.statusCode.toNat ++ space :: response.reasonPhrase) := by
    unfold HTTPResponse.statusLine
    rw [intText_eq hcode]
    rfl
  have hparse : parseInt (numeral 10 response.statusCode.toNat) = some response.statusCode := by
    rw [parseInt_numeral (by omega), Int.toNat_of_nonneg hcode]
  have htake : response.statusLine.take 5 = ascii "HTTP/" := rfl
  unfold parseStatusLine
  rw [if_neg (not_not.mpr htake), hdrop, span_ne_append hversion]
  dsimp only
  rw [span_ne_append hspace]
  dsimp only
  rw [hparse, Option.map_some]

/-- The head is read as it was written, up to the check of the framing fields. -/
theorem parseResponseHead_head (order : HashOrder) (hfits : response.HeadFits fields)
    (hcode : 0 ≤ response.statusCode) (hint : response.statusCode < 2 ^ 31)
    (hfields : fields.Writable) (hkeys : (fields.map Prod.fst).Nodup)
    (hvalid : validateFramingHeaders (order.arrange (fields.map trimField)) = some headers) :
    parseResponseHead order (response.head fields) =
      some { version := response.version, statusCode := response.statusCode,
             reasonPhrase := response.reasonPhrase, headers } := by
  have hlf : lf ∉ response.statusLine ++ [cr] := by
    rw [mem_append, not_or]
    exact ⟨lf_not_mem_statusLine hfits hcode, by decide⟩
  have hline : response.head fields =
      response.statusLine ++ [cr] ++ lf :: (fieldText fields ++ crlf) := by
    rw [head_eq, append_assoc]
    rfl
  have hheaders : parseHeaderLines 0 (fields.map (fun e => fieldLine e ++ [cr]) ++ [[cr]]) [] =
      some (fields.map trimField) :=
    parseHeaderLines_fieldText hfields hkeys (by rw [Nat.zero_add]; exact hfits.count)
  unfold parseResponseHead
  rw [hline, getlines_cons hlf, getlines_fieldText hfields]
  dsimp only
  rw [dropCr_append, parseStatusLine_statusLine hfits.version.1 hcode hint, hheaders]
  simp only [Option.bind_eq_bind, Option.bind_some, hvalid]

end Head

end Spaznet.Http
