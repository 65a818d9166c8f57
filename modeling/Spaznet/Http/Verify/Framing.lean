import Spaznet.Http.Parser

/-!
# Framing of requests

Where a request's body ends is said by its Content-Length and Transfer-Encoding fields. Between what
was sent and what is used stand a table that keeps spellings of a name apart, a validator that looks
at the last of them, lookups that prefer the exact one, a number parser with a bound, and a loop
that stops at an empty line which need not be the end of the block.
-/

namespace Spaznet.Http

open Ascii List Headers

/-! ## What was sent -/

/-- The bytes up to and including the empty line that ends the header block. -/
def headerEnd (buffer : Bytes) : Nat :=
  match findHeaderEnd buffer kMaxHeaderBytes with
  | .found headerEnd => headerEnd
  | .incomplete => 0
  | .tooLarge => 0

def headerBlock (buffer : Bytes) : Bytes := buffer.take (headerEnd buffer)

def afterHeader (buffer : Bytes) : Bytes := buffer.drop (headerEnd buffer)

def valuesOf (name : Bytes) (fields : List (Bytes × Bytes)) : List Bytes :=
  (fields.filter fun f => ciEqual f.1 name).map Prod.snd

/-- The values that the header block holds for a name. -/
def sent (name buffer : Bytes) : List Bytes :=
  valuesOf name ((fieldLines (headerBlock buffer)).filterMap readField)

def Denote (values : List Bytes) (n : Nat) : Prop :=
  ∀ value ∈ values, ∀ m ∈ members value, decimal m = some n

def combined (values : List Bytes) : Bytes := [comma, space].intercalate values

/-- The body is the one that the sent fields delimit. -/
inductive FramedBody (cl te : List Bytes) (rest : Bytes) : (body : Bytes) → Prop where
  | none (hcl : cl = []) (hte : te = []) : FramedBody cl te rest []
  | length (hcl : cl ≠ []) (hte : te = []) (hn : Denote cl n) (hlen : n ≤ rest.length) :
    FramedBody cl te rest (rest.take n)
  | chunked (hte : te ≠ []) (hcl : cl = []) (hlast : lastCoding (combined te) = chunked)
    (hbody : Decodes rest body) : FramedBody cl te rest body

/-! ## What is used -/

def tableOf (order : HashOrder) (buffer : Bytes) : Headers :=
  order.arrange (.ofFields (readFields (headerBlock buffer)))

/-- A Content-Length of `n` survives lookup and conversion: it fits in 64 bits, and the entry that
is looked up is a bare number or the one that the validator puts into normal form. -/
def Headers.LengthUsed (headers : Headers) (n : Nat) : Prop :=
  n < 2 ^ 64 ∧ ∃ e, headers.lookup? contentLength = some e ∧
    (members e.2 = [e.2] ∨ headers.last? contentLength = some e)

/-- The Transfer-Encoding entry that is looked up ends in chunked. -/
def Headers.CodingUsed (headers : Headers) : Prop :=
  ∃ e, headers.lookup? transferEncoding = some e ∧ lastCoding e.2 = chunked

/-- The framing fields of the whole block agree. -/
structure Agree (cl te : List Bytes) : Prop where
  single : cl = [] ∨ te = []
  length : ∃ n, Denote cl n
  coding : te ≠ [] → lastCoding (combined te) = chunked

/-- The fields agree and the parser uses what they say, or what they say makes no difference. -/
structure Framed (order : HashOrder) (buffer : Bytes) : Prop where
  agree : Agree (sent contentLength buffer) (sent transferEncoding buffer)
  length : ∀ {n}, sent contentLength buffer ≠ [] → Denote (sent contentLength buffer) n →
    n = 0 ∨ (tableOf order buffer).LengthUsed n
  coding : sent transferEncoding buffer ≠ [] →
    (tableOf order buffer).CodingUsed ∨ Decodes (afterHeader buffer) []

/-! ## The body -/

theorem isChunked_iff (headers : Headers) : headers.isChunked = true ↔ headers.CodingUsed := by
  unfold isChunked getHeader Headers.CodingUsed
  cases headers.lookup? transferEncoding with
  | none => simp
  | some e => simp

theorem mem_valuesOf : value ∈ valuesOf name fields ↔
    ∃ f ∈ fields, ciEqual f.1 name = true ∧ f.2 = value := by
  unfold valuesOf
  simp only [mem_map, mem_filter, and_assoc]

theorem valuesOf_ne_nil_of_lookup? (fields : List (Bytes × Bytes)) (order : HashOrder)
    (h : (order.arrange (.ofFields fields)).lookup? name = some e) : valuesOf name fields ≠ [] := by
  obtain ⟨hmem, hname⟩ := lookup?_spec h
  rw [order.mem_arrange (nodup_ofFields fields)] at hmem
  obtain ⟨f, hf, heq⟩ := mem_map.mp (key_mem_ofFields fields e hmem)
  rw [← heq] at hname
  exact ne_nil_of_mem (mem_valuesOf.mpr ⟨f, hf, hname, rfl⟩)

theorem exists_entry_of_valuesOf (order : HashOrder) (h : value ∈ valuesOf name fields) :
    ∃ e ∈ order.arrange (.ofFields fields), ciEqual e.1 name = true ∧
      members value ⊆ members e.2 := by
  obtain ⟨f, hf, hname, rfl⟩ := mem_valuesOf.mp h
  obtain ⟨value, hmem, hsub⟩ := covers_ofFields fields f hf
  exact ⟨_, (order.mem_arrange (nodup_ofFields fields)).mpr hmem, hname, hsub⟩

/-- What the validator leaves of Content-Length fields. -/
theorem getContentLength_of_validated (h : Validated headers headers')
    (hcl : ∃ e ∈ headers, ciEqual e.1 contentLength = true) :
    ∃ n, (∀ e ∈ headers, ciEqual e.1 contentLength = true →
        ∀ m ∈ members e.2, decimal m = some n) ∧
      (∀ e ∈ headers, ciEqual e.1 transferEncoding = false) ∧
      ∀ m, headers'.getContentLength = some m ↔ m = n ∧ headers.LengthUsed n := by
  obtain ⟨e₀, he₀, hname₀⟩ := hcl
  cases h with
  | unsized hnone =>
    rw [hnone e₀ he₀] at hname₀
    cases hname₀
  | @sized last token n hlast hvalue hte htoken hnum =>
    refine ⟨n, ?_, hte, fun m => ?_⟩
    · intro e he hname m hm
      rw [hvalue e he hname] at hm
      rw [htoken m hm, hnum]
    obtain ⟨e, he⟩ := exists_lookup? he₀ hname₀
    obtain ⟨hmem, hname⟩ := lookup?_spec he
    have hsame : e.2 = last.2 := hvalue e hmem hname
    unfold getContentLength getHeader Headers.LengthUsed
    rw [lookup?_assign, he]
    simp only [Option.map_some, Option.bind_some, Option.some.injEq, exists_eq_left']
    by_cases hkey : e.1 = last.1
    · -- the entry in normal form is looked up
      rw [if_pos hkey, parseUint64_eq_some, hnum, hlast, Prod.ext hkey hsame]
      simp only [Option.some.injEq, or_true, and_true]
      constructor
      all_goals
        rintro ⟨rfl, hlt⟩
        exact ⟨rfl, hlt⟩
    -- another one is, with the list as it was sent
    have hnot : headers.last? contentLength ≠ some e := by
      rw [hlast]
      rintro ⟨⟩
      exact hkey rfl
    have htokenOf (hbare : members e.2 = [e.2]) : e.2 = token :=
      htoken e.2 (by rw [← hsame, hbare]; exact mem_singleton_self _)
    rw [if_neg hkey, parseUint64_eq_some, or_iff_left hnot]
    constructor
    · rintro ⟨hm, hlt⟩
      have hbare := members_digits (decimal_eq_some hm)
      rw [htokenOf hbare, hnum] at hm
      cases hm
      exact ⟨rfl, hlt, hbare⟩
    · rintro ⟨rfl, hlt, hbare⟩
      rw [htokenOf hbare]
      exact ⟨hnum, hlt⟩

/-- How the body comes about, in terms of the fields `fields` before the first empty line. -/
inductive BodyOf (headers : Headers) (fields : List (Bytes × Bytes)) (rest : Bytes) :
    (body : Bytes) → Prop where
  | length (hcl : valuesOf contentLength fields ≠ [])
    (hn : Denote (valuesOf contentLength fields) n) (hused : headers.LengthUsed n)
    (hlen : n ≤ rest.length) : BodyOf headers fields rest (rest.take n)
  | chunked (hused : headers.CodingUsed) (hcl : valuesOf contentLength fields = [])
    (hbody : Decodes rest body) : BodyOf headers fields rest body
  | none (hlength : ∀ n, Denote (valuesOf contentLength fields) n → ¬ headers.LengthUsed n)
    (hcoding : ¬ headers.CodingUsed) : BodyOf headers fields rest []

theorem lookup?_eq_none {headers : Headers} (h : ∀ e ∈ headers, ciEqual e.1 name = false) :
    headers.lookup? name = none := by
  rw [Option.eq_none_iff_forall_ne_some]
  intro e he
  obtain ⟨hmem, hname⟩ := lookup?_spec he
  rw [h e hmem] at hname
  cases hname

theorem getContentLength_eq_none (h : Validated headers headers')
    (hcl : ∀ e ∈ headers, ciEqual e.1 contentLength = false) :
    headers'.getContentLength = none := by
  have hentry : headers'.lookup? contentLength = none := by
    cases h with
    | unsized => exact lookup?_eq_none hcl
    | sized => rw [lookup?_assign, lookup?_eq_none hcl, Option.map_none]
  unfold getContentLength getHeader
  rw [hentry]
  rfl

theorem isChunked_of_validated (h : Validated headers headers') :
    headers'.isChunked = true ↔ headers.CodingUsed := by
  rw [isChunked_iff]
  cases h with
  | unsized => exact Iff.rfl
  | sized _ _ hte =>
    unfold Headers.CodingUsed
    rw [lookup?_assign, lookup?_eq_none hte, Option.map_none]

theorem Denote.unique (h : Denote values n) (h' : Denote values n') (hne : values ≠ []) :
    n = n' := by
  obtain ⟨value, hvalue⟩ := exists_mem_of_ne_nil _ hne
  obtain ⟨m, hm⟩ := exists_mem_of_ne_nil _ (members_ne_nil value)
  exact Option.some.inj ((h value hvalue m hm).symm.trans (h' value hvalue m hm))

theorem Denote.subset (h : Denote values n) (hsub : values' ⊆ values) : Denote values' n :=
  fun value hvalue => h value (hsub hvalue)

section Body

variable {order : HashOrder} {fields : List (Bytes × Bytes)} {request request' : HTTPRequest}

section
variable (hvalid : Validated (order.arrange (.ofFields fields)) request.headers)
include hvalid

theorem bodyOf_unsized
    (hcl : ∀ e ∈ order.arrange (.ofFields fields), ciEqual e.1 contentLength = false)
    (hbody : request.body = [])
    (h : parseBody buffer stop request = .success (request', consumed)) :
    BodyOf (order.arrange (.ofFields fields)) fields (buffer.drop stop) request'.body := by
  have hentry := lookup?_eq_none hcl
  have hvalues : valuesOf contentLength fields = [] := by
    rw [eq_nil_iff_forall_not_mem]
    intro value hvalue
    obtain ⟨e, he, hname, -⟩ := exists_entry_of_valuesOf order hvalue
    rw [hcl e he] at hname
    cases hname
  have hlength (n : Nat) : ¬ (order.arrange (.ofFields fields)).LengthUsed n := by
    rintro ⟨-, e, he, -⟩
    rw [hentry] at he
    cases he
  unfold parseBody at h
  rw [getContentLength_eq_none hvalid hcl] at h
  dsimp only at h
  split at h
  next hchunked =>
    split at h
    next body chunkBytes hparse =>
      cases h
      obtain ⟨tail, rfl, hdec⟩ := parseChunks_spec hparse
      exact .chunked ((isChunked_of_validated hvalid).mp hchunked) hvalues hdec
    · cases h
    · cases h
  next hplain =>
    cases h
    rw [hbody]
    exact .none (fun n _ => hlength n) fun hused =>
      hplain ((isChunked_of_validated hvalid).mpr hused)

theorem bodyOf_sized
    (hcl : ∃ e ∈ order.arrange (.ofFields fields), ciEqual e.1 contentLength = true)
    (hbody : request.body = [])
    (h : parseBody buffer stop request = .success (request', consumed)) :
    BodyOf (order.arrange (.ofFields fields)) fields (buffer.drop stop) request'.body := by
  obtain ⟨n, hdenote, hte, hlength⟩ := getContentLength_of_validated hvalid hcl
  have hvalues : Denote (valuesOf contentLength fields) n := by
    intro value hvalue m hm
    obtain ⟨e, he, hname, hsub⟩ := exists_entry_of_valuesOf order hvalue
    exact hdenote e he hname m (hsub hm)
  have hne : valuesOf contentLength fields ≠ [] := by
    obtain ⟨e, he, hname⟩ := hcl
    obtain ⟨e', he'⟩ := exists_lookup? he hname
    exact valuesOf_ne_nil_of_lookup? fields order he'
  have hcoding : ¬ (order.arrange (.ofFields fields)).CodingUsed := by
    rintro ⟨e, he, -⟩
    rw [lookup?_eq_none hte] at he
    cases he
  unfold parseBody at h
  split at h
  next bodySize hsize =>
    obtain ⟨rfl, hused⟩ := (hlength bodySize).mp hsize
    split at h
    · cases h
    split at h
    · cases h
    next hroom =>
      cases h
      exact .length hne hvalues hused (by rw [length_drop]; omega)
  next hnone =>
    rw [if_neg fun hchunked => hcoding ((isChunked_of_validated hvalid).mp hchunked)] at h
    cases h
    rw [hbody]
    refine .none (fun n' hn' hused => ?_) hcoding
    rw [hvalues.unique hn' hne] at hlength
    have hsome := (hlength n').mpr ⟨rfl, hused⟩
    rw [hnone] at hsome
    cases hsome

end

end Body

theorem readFields_subset (block : Bytes) :
    readFields block ⊆ (fieldLines block).filterMap readField := by
  intro f hf
  obtain ⟨line, hline, heq⟩ := mem_filterMap.mp hf
  exact mem_filterMap.mpr ⟨line, (takeWhile_sublist _).subset hline, heq⟩

theorem valuesOf_readFields_subset (name buffer : Bytes) :
    valuesOf name (readFields (headerBlock buffer)) ⊆ sent name buffer := by
  intro value hvalue
  obtain ⟨f, hf, hname, rfl⟩ := mem_valuesOf.mp hvalue
  exact mem_valuesOf.mpr ⟨f, readFields_subset _ hf, hname, rfl⟩

theorem bodyOf_parseRequest (h : parseRequest order buffer = .success (request, consumed)) :
    BodyOf (tableOf order buffer) (readFields (headerBlock buffer)) (afterHeader buffer)
      request.body := by
  unfold parseRequest at h
  split at h
  · cases h
  · cases h
  next stop hstop =>
    have hend : headerEnd buffer = stop := by rw [headerEnd, hstop]
    split at h
    · cases h
    next request' hhead =>
    unfold tableOf afterHeader headerBlock
    rw [hend]
    obtain ⟨hvalidate, hempty, -⟩ := parseHead_spec hhead
    have hvalid := validated_of_validateFramingHeaders hvalidate
    by_cases hcl : ∃ e ∈ order.arrange (.ofFields (readFields (buffer.take stop))),
        ciEqual e.1 contentLength = true
    · exact bodyOf_sized hvalid hcl hempty h
    · push Not at hcl
      exact bodyOf_unsized hvalid (fun e he => Bool.eq_false_iff.mpr (hcl e he)) hempty h

/-! ## Soundness -/

section Soundness

variable {order : HashOrder} {buffer body : Bytes}

theorem sent_ne_nil (h : (tableOf order buffer).lookup? name = some e) : sent name buffer ≠ [] := by
  intro hnil
  have hsub := valuesOf_readFields_subset name buffer
  rw [hnil, subset_nil] at hsub
  exact valuesOf_ne_nil_of_lookup? _ order h hsub

/-- What is used is what was sent. -/
theorem Framed.of_framedBody
    (hbody : BodyOf (tableOf order buffer) (readFields (headerBlock buffer)) (afterHeader buffer)
      body)
    (h : FramedBody (sent contentLength buffer) (sent transferEncoding buffer) (afterHeader buffer)
      body) : Framed order buffer := by
  have hsub := valuesOf_readFields_subset contentLength buffer
  cases h with
  | none hcl hte =>
    refine ⟨⟨.inl hcl, ⟨0, ?_⟩, fun h => absurd hte h⟩, fun h => absurd hcl h,
      fun h => absurd hte h⟩
    rw [hcl]
    exact forall_mem_nil _
  | @length n hcl hte hn hlen =>
    refine ⟨⟨.inr hte, ⟨n, hn⟩, fun h => absurd hte h⟩, fun {n'} _ hn' => ?_,
      fun h => absurd hte h⟩
    obtain rfl := hn.unique hn' hcl
    generalize hb : (afterHeader buffer).take n = body at hbody
    cases hbody with
    | @length k hne hk hused =>
      obtain rfl := hk.unique (hn.subset hsub) hne
      exact .inr hused
    | chunked hused =>
      obtain ⟨e, he, -⟩ := hused
      exact absurd hte (sent_ne_nil he)
    | none =>
      have hzero := congrArg List.length hb
      rw [length_take, length_nil] at hzero
      exact .inl (by omega)
  | chunked hte hcl hlast hdec =>
    refine ⟨⟨.inl hcl, ⟨0, ?_⟩, fun _ => hlast⟩, fun h => absurd hcl h, fun _ => ?_⟩
    · rw [hcl]
      exact forall_mem_nil _
    cases hbody with
    | length hne =>
      rw [hcl, subset_nil] at hsub
      exact absurd hsub hne
    | chunked hused => exact .inl hused
    | none => exact .inr hdec

theorem Framed.framedBody (h : Framed order buffer)
    (hbody : BodyOf (tableOf order buffer) (readFields (headerBlock buffer)) (afterHeader buffer)
      body) :
    FramedBody (sent contentLength buffer) (sent transferEncoding buffer) (afterHeader buffer)
      body := by
  have hsub := valuesOf_readFields_subset contentLength buffer
  obtain ⟨n, hn⟩ := h.agree.length
  cases hbody with
  | @length k hne hk hused hlen =>
    -- a length is used
    have hcl : sent contentLength buffer ≠ [] := by
      intro hnil
      rw [hnil, subset_nil] at hsub
      exact hne hsub
    obtain rfl := hk.unique (hn.subset hsub) hne
    exact .length hcl (h.agree.single.resolve_left hcl) hn hlen
  | chunked hused hcl hdec =>
    -- the chunked coding is used
    obtain ⟨e, he, -⟩ := hused
    have hte := sent_ne_nil he
    exact .chunked hte (h.agree.single.resolve_right hte) (h.agree.coding hte) hdec
  | none hlength hcoding =>
    -- nothing is used: the length is zero or the encoding that of no bytes
    by_cases hte : sent transferEncoding buffer = []
    · by_cases hcl : sent contentLength buffer = []
      · exact .none hcl hte
      · obtain rfl := (h.length hcl hn).resolve_right (hlength n (hn.subset hsub))
        exact .length hcl hte hn (Nat.zero_le _)
    · exact .chunked hte (h.agree.single.resolve_right hte) (h.agree.coding hte)
        ((h.coding hte).resolve_left hcoding)

end Soundness

/-- For a request that is accepted, the body is the one that the sent fields delimit exactly if they
agree and the parser uses what they say. -/
theorem framedBody_iff (order : HashOrder) (buffer : Bytes) (request : HTTPRequest) (consumed : Nat)
    (h : parseRequest order buffer = .success (request, consumed)) :
    FramedBody (sent contentLength buffer) (sent transferEncoding buffer) (afterHeader buffer)
      request.body ↔ Framed order buffer := by
  have hbody := bodyOf_parseRequest h
  exact ⟨.of_framedBody hbody, fun hframed => hframed.framedBody hbody⟩

def postRequest (headers : Headers) (body : Bytes) : HTTPRequest :=
  { method := ascii "POST", requestTarget := ascii "/", version := ascii "1.1", headers, body }

def plainLength : Bytes := ascii "POST / HTTP/1.1\r\nContent-Length: 5\r\n\r\nhello"

theorem framedBody_iff_plainLength :
    let request := postRequest [(contentLength, ascii "5")] (ascii "hello")
    parseRequest .newestFirst plainLength = .success (request, 43) ∧
      (FramedBody (sent contentLength plainLength) (sent transferEncoding plainLength)
        (afterHeader plainLength) request.body ↔ Framed .newestFirst plainLength) :=
  ⟨by decide +kernel, framedBody_iff _ _ _ 43 (by decide +kernel)⟩

theorem not_framedBody_of_length (value m : Bytes) (n : Nat) (hpos : 0 < n) (hvalue : value ∈ cl)
    (hm : m ∈ members value) (hn : decimal m = some n) : ¬ FramedBody cl te rest [] := by
  intro h
  generalize hb : ([] : Bytes) = body at h
  cases h with
  | none hcl => exact ne_nil_of_mem hvalue hcl
  | @length n' _ _ hn' hlen =>
    obtain rfl := Option.some.inj (hn.symm.trans (hn' value hvalue m hm))
    have hzero := congrArg List.length hb
    rw [length_nil, length_take] at hzero
    omega
  | chunked _ hcl => exact ne_nil_of_mem hvalue hcl

theorem not_framedBody_of_coding (hte : te ≠ []) (hlast : lastCoding (combined te) ≠ chunked) :
    ¬ FramedBody cl te rest body := by
  intro h
  cases h with
  | none _ hnil | length _ hnil => exact hte hnil
  | chunked _ _ hchunked => exact hlast hchunked

def hugeLength : Bytes := ascii "POST / HTTP/1.1\r\nContent-Length: 18446744073709551616\r\n\r\n"

/-- A length behind an empty line that does not end the block. -/
def hiddenLength : Bytes :=
  ascii "POST / HTTP/1.1\r\nHost: a\r\n\nContent-Length: 5\r\n\r\nhello"

def twoLengths : Bytes :=
  ascii "POST / HTTP/1.1\r\ncontent-length: 5, 5\r\nContent-Length: 5, 5\r\n\r\nhello"

/-- Codings under two spellings, the last of them not chunked. -/
def twoCodings : Bytes :=
  ascii "POST / HTTP/1.1\r\ntransfer-encoding: chunked\r\nTransfer-Encoding: gzip\r\n\r\n0\r\n\r\n"

/-- The request is accepted with a body that is not the one its fields delimit. -/
def Misframed (buffer : Bytes) : Prop :=
  ∃ request consumed, parseRequest .newestFirst buffer = .success (request, consumed) ∧
    ¬ FramedBody (sent contentLength buffer) (sent transferEncoding buffer) (afterHeader buffer)
      request.body

theorem misframed_requests : Misframed hugeLength ∧ Misframed hiddenLength ∧
    Misframed twoLengths ∧ Misframed twoCodings := by
  refine ⟨⟨postRequest [(contentLength, ascii "18446744073709551616")] [], 57, ?_, ?_⟩,
    ⟨postRequest [(ascii "Host", ascii "a")] [], 48, ?_, ?_⟩,
    ⟨postRequest [(contentLength, ascii "5, 5"), (ascii "content-length", ascii "5")] [], 63,
      ?_, ?_⟩,
    ⟨postRequest [(transferEncoding, ascii "gzip"), (ascii "transfer-encoding", chunked)] [], 72,
      ?_, ?_⟩⟩
  · decide +kernel
  · apply not_framedBody_of_length (ascii "18446744073709551616") (ascii "18446744073709551616")
      (2 ^ 64) (by decide)
    all_goals decide +kernel
  · decide +kernel
  · apply not_framedBody_of_length (ascii "5") (ascii "5") 5 (by decide)
    all_goals decide +kernel
  · decide +kernel
  · apply not_framedBody_of_length (ascii "5, 5") (ascii "5") 5 (by decide)
    all_goals decide +kernel
  · decide +kernel
  · apply not_framedBody_of_coding
    all_goals decide +kernel

end Spaznet.Http
