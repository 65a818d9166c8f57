import Spaznet.Http.Verify.Framing

/-!
# Field lines

The end of the header block is found by a scan for CRLF, its lines are separated at LF alone, and
they are read up to the first empty one. A line behind an empty line that the scan did not take for
the end is skipped. What stands in a value is not looked at, as it is when a response is written.
-/

namespace Spaznet.Http

open Ascii List

/-- The line is a field whose value the table has. -/
def Headers.Reads (headers : Headers) (line : Bytes) : Prop :=
  ∃ f, readField line = some f ∧ headers.Covers f

/-- Every line of the block before its last was read, and no value breaks a line. -/
structure FieldsRead (buffer : Bytes) (headers : Headers) : Prop where
  lines : ∀ line ∈ (fieldLines (headerBlock buffer)).dropLast, headers.Reads line
  values : ∀ e ∈ headers, isValidFieldValue e.2 = true

/-- Only the last line of the block is empty, and no line has a CR or NUL in it. -/
structure PlainLines (buffer : Bytes) : Prop where
  nonempty : [] ∉ (fieldLines (headerBlock buffer)).dropLast
  valid : ∀ line ∈ fieldLines (headerBlock buffer), isValidFieldValue line = true

/-! ## Values -/

theorem isValidFieldValue_iff :
    isValidFieldValue value = true ↔ ∀ c ∈ value, isBreak c = false := by
  unfold isValidFieldValue
  simp only [all_eq_true, Bool.not_eq_true']

theorem isBreak_of_isTokenChar (h : isTokenChar c = true) : isBreak c = false := by
  rw [isBreak, decide_eq_false_iff_not]
  rintro (rfl | rfl | rfl)
  all_goals exact absurd h (by decide)

theorem isBreak_of_isDigit (h : isDigit c = true) : isBreak c = false := by
  rw [isBreak, decide_eq_false_iff_not]
  rintro (rfl | rfl | rfl)
  all_goals exact absurd h (by decide)

theorem isBreak_of_isOws (h : isOws c = true) : isBreak c = false := by
  rw [isBreak, decide_eq_false_iff_not]
  rintro (rfl | rfl | rfl)
  all_goals exact absurd h (by decide)

/-- A line is as good as the value that is read from it. -/
theorem isValidFieldValue_line (h : readField line = some f) :
    isValidFieldValue line = true ↔ isValidFieldValue f.2 = true := by
  obtain ⟨raw, rfl, hvalue, htoken⟩ := readField_spec h
  rw [all_eq_true] at htoken
  rw [isValidFieldValue_iff, isValidFieldValue_iff, hvalue]
  constructor
  · intro hline c hc
    exact hline c (mem_append_right _ (mem_cons_of_mem _ (mem_of_mem_trimOws hc)))
  · intro htrim c hc
    obtain hc | hc := mem_append.mp hc
    · exact isBreak_of_isTokenChar (htoken c hc)
    obtain rfl | hc := mem_cons.mp hc
    · decide
    cases hows : isOws c with
    | true => exact isBreak_of_isOws hows
    | false => exact htrim c (mem_trimOws hc hows)

theorem isValidFieldValue_of_covers {headers : Headers} (h : headers.Covers f)
    (hvalues : ∀ e ∈ headers, isValidFieldValue e.2 = true) : isValidFieldValue f.2 = true := by
  obtain ⟨value, hmem, hsub⟩ := h
  have hvalue := isValidFieldValue_iff.mp (hvalues _ hmem)
  rw [isValidFieldValue_iff]
  intro c hc
  by_contra hbreak
  rw [Bool.not_eq_false] at hbreak
  have hcomma : c ≠ comma := by
    rintro rfl
    cases hbreak
  have hows : isOws c = false := by
    by_contra hows
    rw [isBreak_of_isOws (Bool.not_eq_false _ ▸ hows)] at hbreak
    cases hbreak
  obtain ⟨m, hm, hcm⟩ := exists_mem_members hc hcomma hows
  rw [hvalue c (mem_of_mem_members (hsub hm) hcm hcomma)] at hbreak
  cases hbreak

/-! ## The table -/

theorem isValidFieldValue_ofFields (fields : List (Bytes × Bytes))
    (h : ∀ f ∈ fields, isValidFieldValue f.2 = true) :
    ∀ e ∈ Headers.ofFields fields, isValidFieldValue e.2 = true := by
  revert h
  refine Headers.ofFields_invariant
    (P := fun fields headers => (∀ f ∈ fields, isValidFieldValue f.2 = true) →
      ∀ e ∈ headers, isValidFieldValue e.2 = true) (fun _ => forall_mem_nil _) ?_ fields
  intro fields headers f ih h e he
  have hold := ih fun f hf => h f (mem_append_left _ hf)
  have hnew := h f (mem_append_right _ (mem_singleton_self _))
  obtain he | he | ⟨value, hmem, he⟩ := Headers.mem_store he
  · exact hold e he
  · rw [he]
    exact hnew
  have hvalue := hold _ hmem
  unfold isValidFieldValue at hvalue hnew ⊢
  rw [he, all_append, hvalue, all_cons, all_cons, hnew]
  rfl

theorem Validated.values_valid (h : Validated headers headers')
    (hvalues : ∀ e ∈ headers, isValidFieldValue e.2 = true) :
    ∀ e ∈ headers', isValidFieldValue e.2 = true := by
  cases h with
  | unsized => exact hvalues
  | sized _ _ _ _ hnum =>
    intro e he
    obtain ⟨e', he', rfl⟩ := mem_map.mp he
    split
    · rw [isValidFieldValue_iff]
      exact fun c hc => isBreak_of_isDigit (all_eq_true.mp (decimal_eq_some hnum) c hc)
    · exact hvalues e' he'

/-! ## The request -/

theorem parseBody_headers (h : parseBody buffer stop request = .success (request', consumed)) :
    request'.headers = request.headers := by
  unfold parseBody at h
  split at h
  · split at h
    · cases h
    split at h
    · cases h
    · cases h
      rfl
  · split at h
    · split at h
      · cases h
        rfl
      · cases h
      · cases h
    · cases h
      rfl

theorem head_of_parseRequest (h : parseRequest order buffer = .success (request, consumed)) :
    Validated (tableOf order buffer) request.headers ∧
      ∀ line ∈ (fieldLines (headerBlock buffer)).takeWhile (· ≠ []),
        ∃ f, readField line = some f := by
  unfold parseRequest at h
  split at h
  · cases h
  · cases h
  next stop hstop =>
    have hend : headerEnd buffer = stop := by rw [headerEnd, hstop]
    split at h
    · cases h
    next request' hhead =>
    obtain ⟨hvalidate, -, hlines⟩ := parseHead_spec hhead
    rw [tableOf, headerBlock, hend, parseBody_headers h]
    exact ⟨validated_of_validateFramingHeaders hvalidate, hlines⟩

section Lines

variable {order : HashOrder} {buffer : Bytes} {headers : Headers}

theorem reads_of_mem_takeWhile (hvalid : Validated (tableOf order buffer) headers)
    (hline : line ∈ (fieldLines (headerBlock buffer)).takeWhile (· ≠ []))
    (hf : readField line = some f) : headers.Covers f := by
  have hmem : f ∈ readFields (headerBlock buffer) := mem_filterMap.mpr ⟨line, hline, hf⟩
  obtain ⟨value, hentry, hsub⟩ := Headers.covers_ofFields _ f hmem
  rw [← order.mem_arrange (Headers.nodup_ofFields _)] at hentry
  exact hvalid.covers ⟨value, hentry, hsub⟩

/-- With no empty line before the last, all non-empty lines come before the first empty one. -/
theorem mem_takeWhile_of_nonempty {lines : List Bytes} (h : [] ∉ lines.dropLast)
    (hline : line ∈ lines) (hne : line ≠ []) : line ∈ lines.takeWhile (· ≠ []) := by
  have hall : ∀ l ∈ lines.dropLast, decide (l ≠ []) = true := by
    intro l hl
    rw [decide_eq_true_eq]
    rintro rfl
    exact h hl
  obtain ⟨last, hlast⟩ : ∃ last, lines = lines.dropLast ++ [last] :=
    ⟨_, (dropLast_append_getLast (ne_nil_of_mem hline)).symm⟩
  rw [hlast] at hline ⊢
  rw [takeWhile_append_of_pos hall]
  obtain hline | hline := mem_append.mp hline
  · exact mem_append_left _ hline
  rw [mem_singleton] at hline
  rw [← hline, takeWhile_cons_of_pos (by simp [hne])]
  exact mem_append_right _ mem_cons_self

end Lines

/-- In a request that is accepted, all lines are read and all values are clean exactly if only the
last line is empty and no line has a CR or NUL in it. -/
theorem fieldsRead_iff (order : HashOrder) (buffer : Bytes) (request : HTTPRequest) (consumed : Nat)
    (h : parseRequest order buffer = .success (request, consumed)) :
    FieldsRead buffer request.headers ↔ PlainLines buffer := by
  obtain ⟨hvalid, hparsed⟩ := head_of_parseRequest h
  constructor
  · intro hread
    have hnonempty : [] ∉ (fieldLines (headerBlock buffer)).dropLast := by
      intro hmem
      obtain ⟨f, hf, -⟩ := hread.lines [] hmem
      cases hf
    refine ⟨hnonempty, fun line hline => ?_⟩
    by_cases hne : line = []
    · rw [hne]
      rfl
    have hmem := mem_takeWhile_of_nonempty hnonempty hline hne
    obtain ⟨f, hf⟩ := hparsed line hmem
    rw [isValidFieldValue_line hf]
    exact isValidFieldValue_of_covers (reads_of_mem_takeWhile hvalid hmem hf) hread.values
  · intro hplain
    refine ⟨fun line hline => ?_, ?_⟩
    · have hne : line ≠ [] := by
        rintro rfl
        exact hplain.nonempty hline
      have hmem := mem_takeWhile_of_nonempty hplain.nonempty (dropLast_subset _ hline) hne
      obtain ⟨f, hf⟩ := hparsed line hmem
      exact ⟨f, hf, reads_of_mem_takeWhile hvalid hmem hf⟩
    · refine hvalid.values_valid fun e he => ?_
      rw [tableOf, order.mem_arrange (Headers.nodup_ofFields _)] at he
      refine isValidFieldValue_ofFields _ (fun f hf => ?_) e he
      obtain ⟨line, hline, hfield⟩ := mem_filterMap.mp hf
      rw [← isValidFieldValue_line hfield]
      exact hplain.valid line ((takeWhile_sublist _).subset hline)

theorem fieldsRead_iff_plainLength :
    let request := postRequest [(contentLength, ascii "5")] (ascii "hello")
    parseRequest .newestFirst plainLength = .success (request, 43) ∧
      (FieldsRead plainLength request.headers ↔ PlainLines plainLength) :=
  ⟨by decide +kernel, fieldsRead_iff .newestFirst _ _ 43 (by decide +kernel)⟩

def brokenValue : Bytes := ascii "POST / HTTP/1.1\r\nHost: a\rb\r\n\r\n"

/-- A line behind an empty one is not read, and a value is stored with the CR in it. -/
theorem unread_lines :
    (∃ request consumed, parseRequest .newestFirst hiddenLength = .success (request, consumed) ∧
        ¬ ∀ line ∈ (fieldLines (headerBlock hiddenLength)).dropLast,
          request.headers.Reads line) ∧
      ∃ request consumed, parseRequest .newestFirst brokenValue = .success (request, consumed) ∧
        ¬ ∀ e ∈ request.headers, isValidFieldValue e.2 = true := by
  refine ⟨⟨postRequest [(ascii "Host", ascii "a")] [], 48, by decide +kernel, fun h => ?_⟩,
    ⟨postRequest [(ascii "Host", ascii "a\rb")] [], 30, by decide +kernel, by decide +kernel⟩⟩
  obtain ⟨f, hf, value, hmem, -⟩ := h (ascii "Content-Length: 5") (by decide +kernel)
  have hname : f = (contentLength, ascii "5") := Option.some.inj (hf.symm.trans (by decide +kernel))
  rw [hname] at hmem
  rw [postRequest, mem_singleton] at hmem
  have hne : contentLength ≠ ascii "Host" := by decide +kernel
  exact hne (congrArg Prod.fst hmem)

end Spaznet.Http
