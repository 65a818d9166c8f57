import Spaznet.Http.Verify.ChunkedRoundTrip
import Spaznet.Http.Verify.Framing

/-!
# Self-delimiting responses

A response that is written on a persistent connection should be read back by the parser as it was
sent, whatever follows it. That is so for responses within the limits of the parser whose status
line stays one line and whose framing fields agree with what the serialiser adds.
-/

namespace Spaznet.Http

open Ascii List Headers HTTPResponse

/-- A response with a final status that permits a body, and with no other Content-Length than that
of its body. -/
structure HTTPResponse.Final (response : HTTPResponse) : Prop where
  keys : (response.headers.map Prod.fst).Nodup
  status : 200 ≤ response.statusCode ∧ response.statusCode ≤ 599
  body : response.statusCode ≠ 204 ∧ response.statusCode ≠ 304
  length : ∀ e ∈ response.headers, ciEqual e.1 contentLength = true →
    decimal (trimOws e.2) = some response.body.length

/-- Whatever follows, the parser reads this response and stops behind it. -/
def HTTPResponse.ReadsBack (response : HTTPResponse) (order : HashOrder) : Prop :=
  ∀ more, ∃ parsed,
    parseResponse order (response.serializeResponse ++ more) =
        .success (parsed, response.serializeResponse.length) ∧
      parsed.statusCode = response.statusCode ∧ parsed.body = response.body

/-- The framing fields say one thing. Either there is no Transfer-Encoding, and one text stands in
all Content-Length fields, the one that is added included; or there is, every one of them ends in
chunked, and there is no Content-Length. -/
inductive HTTPResponse.Delimited (response : HTTPResponse) : Prop where
  | sized (hte : ∀ e ∈ response.headers, ciEqual e.1 transferEncoding = false)
    (hcl : ∀ e ∈ response.headers, ciEqual e.1 contentLength = true → trimOws e.2 = text)
    (htext : contentLength ∈ response.headers.map Prod.fst ∨
      text = numeral 10 response.body.length)
    (hbody : response.body.length ≤ kMaxBodySize)
    (hhead : response.HeadFits response.lengthFields) : Delimited response
  | chunked (hsome : ∃ e ∈ response.headers, ciEqual e.1 transferEncoding = true)
    (hte : ∀ e ∈ response.headers, ciEqual e.1 transferEncoding = true →
      lastCoding (trimOws e.2) = chunked)
    (hcl : ∀ e ∈ response.headers, ciEqual e.1 contentLength = false)
    (hbody : response.body.length ≤ kMaxChunkSize)
    (hhead : response.HeadFits response.chunkedFields) : Delimited response

/-! ## The check of the framing fields -/

variable {headers : Headers}

theorem framingEntries_last (h : ∀ e ∈ headers, ciEqual e.1 contentLength = true → e.2 = value) :
    framingEntries headers none none =
      some (headers.last? contentLength, headers.last? transferEncoding) := by
  refine framingEntries_eq_some_iff.mpr ⟨⟨value, nofun, h⟩, ?_⟩
  rw [Option.or_none, Option.or_none]

/-- One number in all Content-Length fields passes, and nothing is changed. -/
theorem validateFramingHeaders_sized
    (hcl : ∀ e ∈ headers, ciEqual e.1 contentLength = true → e.2 = text)
    (hte : ∀ e ∈ headers, ciEqual e.1 transferEncoding = false) (htext : decimal text = some n) :
    validateFramingHeaders headers = some headers := by
  have hnorm : headers.normalize (headers.last? contentLength) = some headers := by
    cases hlast : headers.last? contentLength with
    | none => rfl
    | some last =>
      obtain ⟨hmem, hname⟩ := last?_spec hlast
      have hdigits := decimal_eq_some htext
      have hne : text ≠ [] := by
        rintro rfl
        cases htext
      have htoken : commonToken none (members last.2) = some text := by
        rw [hcl last hmem hname, members_digits hdigits, commonToken, if_neg hne, hdigits]
        rfl
      have hassign : headers.assign last.1 text = headers := by
        refine (map_congr_left fun e he => ?_).trans (map_id headers)
        split
        next hkey => exact Prod.ext rfl (hcl e he (hkey ▸ hname)).symm
        · rfl
      rw [Headers.normalize, htoken, Option.map_some, hassign]
  unfold validateFramingHeaders
  rw [framingEntries_last hcl, last?_eq_none_iff.mpr hte]
  simp only [Option.bind_eq_bind, Option.bind_some, hnorm]
  rw [if_neg (by rintro ⟨-, ⟨⟩⟩), if_neg (by rintro ⟨⟩)]

theorem validateFramingHeaders_chunked
    (hcl : ∀ e ∈ headers, ciEqual e.1 contentLength = false)
    (hte : ∀ e ∈ headers, ciEqual e.1 transferEncoding = true → lastCoding e.2 = chunked) :
    validateFramingHeaders headers = some headers := by
  have hnone (e : Bytes × Bytes) (he : e ∈ headers) (h : ciEqual e.1 contentLength = true) :
      e.2 = [] := by
    rw [hcl e he] at h
    cases h
  have hcoding : (headers.last? transferEncoding).any (fun e => lastCoding e.2 ≠ chunked) =
      false := by
    cases hlast : headers.last? transferEncoding with
    | none => rfl
    | some last =>
      obtain ⟨hmem, hname⟩ := last?_spec hlast
      simp [hte last hmem hname]
  unfold validateFramingHeaders
  rw [framingEntries_last hnone, last?_eq_none_iff.mpr hcl]
  simp only [Option.bind_eq_bind, Option.bind_some, Headers.normalize, hcoding]
  rw [if_neg (fun h => nomatch h.1), if_neg Bool.false_ne_true]

/-! ## The written fields -/

theorem Headers.writable_emitted (headers : Headers) : headers.emitted.Writable := by
  have h (e : Bytes × Bytes) (he : e ∈ headers.emitted) := (mem_filter.mp he).2
  simp only [Bool.and_eq_true] at h
  exact ⟨fun e he => (h e he).1, fun e he => (h e he).2⟩

theorem Headers.Writable.append {fields : Headers} (h : fields.Writable)
    (hname : isValidFieldName e.1 = true) (hvalue : isValidFieldValue e.2 = true) :
    (fields ++ [e]).Writable :=
  ⟨forall_mem_append.mpr ⟨h.names, forall_mem_singleton.mpr hname⟩,
    forall_mem_append.mpr ⟨h.values, forall_mem_singleton.mpr hvalue⟩⟩

theorem mem_emitted (h : e ∈ headers.emitted) : e ∈ headers :=
  (mem_filter.mp h).1

theorem nodup_emitted (h : (headers.map Prod.fst).Nodup) :
    (headers.emitted.map Prod.fst).Nodup :=
  h.sublist (filter_sublist.map _)

theorem nodup_append_of_not_mem (h : (fields.map Prod.fst).Nodup)
    (hkey : e.1 ∉ fields.map Prod.fst) : ((fields ++ [e]).map Prod.fst).Nodup := by
  rw [map_append]
  exact h.append (nodup_singleton _) (disjoint_singleton.mpr hkey)

structure Headers.Sized (fields : Headers) (text : Bytes) : Prop where
  writable : fields.Writable
  keys : (fields.map Prod.fst).Nodup
  given : ∃ e ∈ fields, ciEqual e.1 contentLength = true
  length : ∀ e ∈ fields, ciEqual e.1 contentLength = true → trimOws e.2 = text
  coding : ∀ e ∈ fields, ciEqual e.1 transferEncoding = false

structure Headers.Coded (fields : Headers) : Prop where
  writable : fields.Writable
  keys : (fields.map Prod.fst).Nodup
  given : ∃ e ∈ fields, ciEqual e.1 transferEncoding = true
  coding : ∀ e ∈ fields, ciEqual e.1 transferEncoding = true → lastCoding (trimOws e.2) = chunked
  length : ∀ e ∈ fields, ciEqual e.1 contentLength = false

theorem isValidFieldValue_of_decimal (h : decimal (trimOws value) = some n) :
    isValidFieldValue value = true := by
  have hdigits := all_eq_true.mp (decimal_eq_some h)
  rw [isValidFieldValue, all_eq_true]
  intro c hc
  rw [Bool.not_eq_true', isBreak, decide_eq_false_iff_not]
  intro hcase
  have hows : isOws c = false := by
    obtain rfl | rfl | rfl := hcase
    all_goals decide
  have hdigit := hdigits c (mem_trimOws hc hows)
  obtain rfl | rfl | rfl := hcase
  all_goals exact absurd hdigit (by decide)

theorem not_mem_keys (h : ∀ e ∈ headers, ciEqual e.1 name = false) :
    name ∉ headers.map Prod.fst := by
  intro hmem
  obtain ⟨e, he, rfl⟩ := mem_map.mp hmem
  have hself : ciEqual e.1 e.1 = true := decide_eq_true rfl
  rw [h e he] at hself
  cases hself

section Fields

variable {response : HTTPResponse} {text : Bytes}

theorem statusForbidsBody_of_final (h : response.Final) :
    statusForbidsBody response.statusCode = false := by
  rw [statusForbidsBody, decide_eq_false_iff_not]
  have hstatus := h.status
  have hbody := h.body
  omega

theorem sized_of_given (hfinal : response.Final)
    (hte : ∀ e ∈ response.headers, ciEqual e.1 transferEncoding = false)
    (hcl : ∀ e ∈ response.headers, ciEqual e.1 contentLength = true → trimOws e.2 = text)
    (hgiven : contentLength ∈ response.headers.map Prod.fst) :
    response.lengthFields.Sized text := by
  have hfields : response.lengthFields = response.headers.emitted := by
    unfold lengthFields
    rw [if_neg fun h => h.2.1 hgiven, append_nil]
  rw [hfields]
  obtain ⟨e, he, hkey⟩ := mem_map.mp hgiven
  have hname : ciEqual e.1 contentLength = true := by
    rw [hkey]
    exact decide_eq_true rfl
  have hemitted : e ∈ response.headers.emitted := by
    refine mem_filter.mpr ⟨he, Bool.and_eq_true_iff.mpr ⟨?_, ?_⟩⟩
    · rw [hkey]
      decide
    · exact isValidFieldValue_of_decimal (hfinal.length e he hname)
  exact ⟨writable_emitted _, nodup_emitted hfinal.keys, ⟨e, hemitted, hname⟩,
    fun e he => hcl e (mem_emitted he), fun e he => hte e (mem_emitted he)⟩

theorem sized_of_added (hfinal : response.Final)
    (hte : ∀ e ∈ response.headers, ciEqual e.1 transferEncoding = false)
    (hcl : ∀ e ∈ response.headers, ciEqual e.1 contentLength = true →
      trimOws e.2 = numeral 10 response.body.length)
    (hgiven : contentLength ∉ response.headers.map Prod.fst) :
    response.lengthFields.Sized (numeral 10 response.body.length) := by
  have hdecimal := decimal_numeral response.body.length
  have htrim : trimOws (numeral 10 response.body.length) = numeral 10 response.body.length :=
    trimOws_eq_self fun c hc =>
      isOws_of_isDigit (all_eq_true.mp (isDigit_numeral response.body.length) c hc)
  have hfields : response.lengthFields =
      response.headers.emitted ++ [(contentLength, numeral 10 response.body.length)] := by
    unfold lengthFields
    rw [statusForbidsBody_of_final hfinal, if_pos ⟨Bool.false_ne_true, hgiven, not_mem_keys hte⟩]
  have hvalue : isValidFieldValue (numeral 10 response.body.length) = true :=
    isValidFieldValue_of_decimal (by rw [htrim, hdecimal])
  have hkey : contentLength ∉ response.headers.emitted.map Prod.fst := fun hmem =>
    hgiven (map_subset Prod.fst (fun _ => mem_emitted) hmem)
  have hname : isValidFieldName contentLength = true := by decide
  have hself : ciEqual contentLength contentLength = true := by decide
  have hother : ciEqual contentLength transferEncoding = false := by decide
  rw [hfields]
  refine ⟨(writable_emitted _).append hname hvalue,
    nodup_append_of_not_mem (nodup_emitted hfinal.keys) hkey,
    ⟨_, mem_append_right _ (mem_singleton_self _), hself⟩,
    forall_mem_append.mpr ⟨fun e he => hcl e (mem_emitted he), ?_⟩,
    forall_mem_append.mpr ⟨fun e he => hte e (mem_emitted he), ?_⟩⟩
  · exact forall_mem_singleton.mpr fun _ => htrim
  · exact forall_mem_singleton.mpr hother

theorem coded_chunkedFields (hfinal : response.Final)
    (hte : ∀ e ∈ response.headers, ciEqual e.1 transferEncoding = true →
      lastCoding (trimOws e.2) = chunked)
    (hcl : ∀ e ∈ response.headers, ciEqual e.1 contentLength = false) :
    response.chunkedFields.Coded := by
  have hkeys := nodup_emitted hfinal.keys
  unfold chunkedFields
  split
  next hgiven =>
    obtain ⟨e, he, hname⟩ := any_eq_true.mp hgiven
    rw [append_nil]
    exact ⟨writable_emitted _, hkeys, ⟨e, he, hname⟩,
      fun e he => hte e (mem_emitted he), fun e he => hcl e (mem_emitted he)⟩
  next hgiven =>
    have hnone (e : Bytes × Bytes) (he : e ∈ response.headers.emitted) :
        ciEqual e.1 transferEncoding = false :=
      Bool.eq_false_iff.mpr fun hname => hgiven (any_eq_true.mpr ⟨e, he, hname⟩)
    exact ⟨(writable_emitted _).append (by decide) (by decide),
      nodup_append_of_not_mem hkeys (not_mem_keys hnone),
      ⟨_, mem_append_right _ (mem_singleton_self _), by decide⟩,
      forall_mem_append.mpr ⟨fun e he => hte e (mem_emitted he), by decide⟩,
      forall_mem_append.mpr ⟨fun e he => hcl e (mem_emitted he), by decide⟩⟩

end Fields

/-! ## The parser -/

section
variable (order : HashOrder)

theorem mem_arrange_trimField {fields : Headers} (hkeys : (fields.map Prod.fst).Nodup) :
    e ∈ order.arrange (fields.map trimField) ↔ ∃ e' ∈ fields, trimField e' = e := by
  have hkeys' : ((fields.map trimField).map Prod.fst).Nodup := by
    rw [map_map]
    exact hkeys
  rw [order.mem_arrange hkeys', mem_map]

theorem forall_mem_arrange {fields : Headers} {P : Bytes × Bytes → Prop}
    (hkeys : (fields.map Prod.fst).Nodup) (h : ∀ e ∈ fields, P (trimField e)) :
    ∀ e ∈ order.arrange (fields.map trimField), P e := by
  intro e he
  obtain ⟨e', he', rfl⟩ := (mem_arrange_trimField order hkeys).mp he
  exact h e' he'

theorem exists_getHeader_arrange {fields : Headers}
    (hkeys : (fields.map Prod.fst).Nodup) (h : ∃ e ∈ fields, ciEqual e.1 name = true) :
    ∃ e ∈ order.arrange (fields.map trimField), ciEqual e.1 name = true ∧
      (order.arrange (fields.map trimField)).getHeader name = some e.2 := by
  obtain ⟨e, he, hname⟩ := h
  exact exists_getHeader ((mem_arrange_trimField order hkeys).mpr ⟨e, he, rfl⟩) hname

/-- A head that was written is parsed, and the body behind it remains. -/
theorem parseResponse_head {response : HTTPResponse}
    (hfits : response.HeadFits fields) (hcode : 0 ≤ response.statusCode)
    (hint : response.statusCode < 2 ^ 31) (hfields : fields.Writable)
    (hkeys : (fields.map Prod.fst).Nodup)
    (hvalid : validateFramingHeaders (order.arrange (fields.map trimField)) = some headers)
    (rest : Bytes) :
    parseResponse order (response.head fields ++ rest) =
      parseResponseBody (response.head fields ++ rest) (response.head fields).length
        { version := response.version, statusCode := response.statusCode,
          reasonPhrase := response.reasonPhrase, headers } := by
  unfold parseResponse
  rw [findHeaderEnd_head hfits hcode hfields]
  dsimp only
  rw [take_left, parseResponseHead_head order hfits hcode hint hfields hkeys hvalid]

end

section ReadsBack

variable {response : HTTPResponse} {order : HashOrder}

theorem int_statusCode (h : response.Final) :
    0 ≤ response.statusCode ∧ response.statusCode < 2 ^ 31 := by
  have hstatus := h.status
  omega

theorem readsBack_sized (hfinal : response.Final) (hfits : response.HeadFits response.lengthFields)
    (hfields : response.lengthFields.Sized text) (htext : decimal text = some response.body.length)
    (hbody : response.body.length ≤ kMaxBodySize)
    (hserial : response.serializeResponse = response.serialize) : response.ReadsBack order := by
  intro more
  obtain ⟨hcode, hint⟩ := int_statusCode hfinal
  have hlength := forall_mem_arrange order (P := fun e => ciEqual e.1 contentLength = true →
    e.2 = text) hfields.keys hfields.length
  have hvalid := validateFramingHeaders_sized hlength
    (forall_mem_arrange order hfields.keys hfields.coding) htext
  obtain ⟨e, he, hname, hlookup⟩ := exists_getHeader_arrange order hfields.keys hfields.given
  rw [hlength e he hname] at hlookup
  have hsize : parseUint64 text = some response.body.length :=
    parseUint64_eq_some.mpr ⟨htext, by unfold kMaxBodySize at hbody; omega⟩
  rw [hserial, serialize, append_assoc,
    parseResponse_head order hfits hcode hint hfields.writable hfields.keys hvalid]
  unfold parseResponseBody
  rw [hlookup]
  dsimp only
  rw [hsize]
  dsimp only
  rw [if_neg (by omega), if_neg (by simp only [length_append]; omega), drop_left,
    take_left, length_append]
  exact ⟨_, rfl, rfl, rfl⟩

theorem readsBack_chunked (hfinal : response.Final)
    (hfits : response.HeadFits response.chunkedFields) (hfields : response.chunkedFields.Coded)
    (hbody : response.body.length ≤ kMaxChunkSize)
    (hserial : response.serializeResponse = response.serializeChunked) :
    response.ReadsBack order := by
  intro more
  obtain ⟨hcode, hint⟩ := int_statusCode hfinal
  have hcoding := forall_mem_arrange order (P := fun e => ciEqual e.1 transferEncoding = true →
    lastCoding e.2 = chunked) hfields.keys hfields.coding
  have hlength := forall_mem_arrange order (P := fun e => ciEqual e.1 contentLength = false)
    hfields.keys hfields.length
  have hvalid := validateFramingHeaders_chunked hlength hcoding
  obtain ⟨e, he, hname, hte⟩ := exists_getHeader_arrange order hfields.keys hfields.given
  have hnone : (order.arrange (response.chunkedFields.map trimField)).getHeader contentLength =
      none := by
    rw [getHeader, lookup?_eq_none hlength, Option.map_none]
  rw [hserial, serializeChunked, append_assoc,
    parseResponse_head order hfits hcode hint hfields.writable hfields.keys hvalid]
  unfold parseResponseBody
  rw [hnone, hte]
  dsimp only
  rw [if_neg (not_not.mpr (hcoding e he hname)), drop_left,
    response.parseChunkedBody_chunkedBody hbody, length_append]
  exact ⟨_, rfl, rfl, rfl⟩

theorem serializeResponse_of_none
    (h : ∀ e ∈ response.headers, ciEqual e.1 transferEncoding = false) :
    response.serializeResponse = response.serialize := by
  unfold serializeResponse getHeader
  rw [lookup?_eq_none h]
  rfl

theorem serializeResponse_of_chunked
    (hsome : ∃ e ∈ response.headers, ciEqual e.1 transferEncoding = true)
    (hte : ∀ e ∈ response.headers, ciEqual e.1 transferEncoding = true →
      lastCoding (trimOws e.2) = chunked) :
    response.serializeResponse = response.serializeChunked := by
  obtain ⟨e, he, hname⟩ := hsome
  obtain ⟨entry, hmem, hname', hentry⟩ := exists_getHeader he hname
  have hlast := hte entry hmem hname'
  have hword : chunked <:+: toLower (trimOws entry.2) := by
    rw [← hlast]
    exact infix_of_lastCoding (by rw [hlast]; decide)
  unfold serializeResponse
  rw [hentry]
  exact if_pos (hword.trans ((trimOws_isInfix entry.2).map lower))

/-- A response within the limits whose framing fields say one thing is delimited by itself. -/
theorem readsBack_of_delimited (response : HTTPResponse) (order : HashOrder)
    (hfinal : response.Final) (hdelimited : response.Delimited) : response.ReadsBack order := by
  cases hdelimited with
  | @sized text hte hcl htext hbody hhead =>
    have hserial := serializeResponse_of_none hte
    by_cases hgiven : contentLength ∈ response.headers.map Prod.fst
    · obtain ⟨e, he, hkey⟩ := mem_map.mp hgiven
      have hname : ciEqual e.1 contentLength = true := by
        rw [hkey]
        exact decide_eq_true rfl
      have hdecimal : decimal text = some response.body.length := by
        rw [← hcl e he hname]
        exact hfinal.length e he hname
      exact readsBack_sized hfinal hhead (sized_of_given hfinal hte hcl hgiven) hdecimal hbody
        hserial
    · obtain rfl : text = numeral 10 response.body.length := htext.resolve_left hgiven
      exact readsBack_sized hfinal hhead (sized_of_added hfinal hte hcl hgiven)
        (decimal_numeral _) hbody hserial
  | chunked hsome hte hcl hbody hhead =>
    exact readsBack_chunked hfinal hhead (coded_chunkedFields hfinal hte hcl) hbody
      (serializeResponse_of_chunked hsome hte)

end ReadsBack

def hello : HTTPResponse :=
  { headers := [(ascii "Content-Type", ascii "text/plain")], body := ascii "hello" }

/-- It is read back in front of another response. -/
theorem readsBack_hello :
    hello.Final ∧ hello.Delimited ∧ hello.ReadsBack .newestFirst := by
  have hfinal : hello.Final := ⟨by decide, by decide, by decide, by decide⟩
  have hdelimited : hello.Delimited := by
    refine @HTTPResponse.Delimited.sized _ (numeral 10 hello.body.length) ?_ ?_ (.inr rfl) ?_ ?_
    · decide
    · decide
    · decide
    · exact ⟨by decide +kernel, by decide +kernel, by decide +kernel, by decide +kernel⟩
  exact ⟨hfinal, hdelimited, readsBack_of_delimited hello .newestFirst hfinal hdelimited⟩

/-- One hundred and one fields, which are one more than the parser takes. -/
def crowded : HTTPResponse :=
  { headers := (List.range 100).map fun n => (ascii "X-" ++ numeral 10 n, ascii "1") }

def brokenReason : HTTPResponse := { reasonPhrase := ascii "OK\r\nContent-Length: 7" }

/-- Neither is read back. -/
theorem not_readsBack_crowded :
    crowded.Final ∧ parseResponse .newestFirst crowded.serializeResponse = .error ∧
      brokenReason.Final ∧
      parseResponse .newestFirst brokenReason.serializeResponse = .error := by
  have hcrowded : crowded.Final := ⟨by decide +kernel, by decide, by decide, by decide +kernel⟩
  have hbroken : brokenReason.Final := ⟨by decide, by decide, by decide, by decide⟩
  exact ⟨hcrowded, by decide +kernel, hbroken, by decide +kernel⟩

end Spaznet.Http
