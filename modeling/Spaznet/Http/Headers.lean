import Mathlib.Data.List.Nodup
import Mathlib.Logic.Function.Iterate
import Spaznet.Http.Text
import Spaznet.Lib.HashTable

/-!
# Header fields

`std::unordered_map` is a list of entries without repeated keys. It is built in the order of
insertion and visited in an order of the hash table's own, `HashOrder`, which depends on the keys,
the order they came in and the buckets that the table has kept through `clear`, `HashTables`.
-/

namespace Spaznet.Http

open Ascii List Prod

abbrev Headers := List (Bytes × Bytes)

/-- An order in which hash tables are visited. -/
structure HashOrder where
  visit : List Bytes → List Bytes
  perm : ∀ keys, (visit keys).Perm keys

def HashOrder.newestFirst : HashOrder where
  visit := List.reverse
  perm := reverse_perm

theorem HashOrder.visit_nil (order : HashOrder) : order.visit [] = [] := (order.perm []).eq_nil

/-- The tables of a standard library. `order` and `grow` say how a table that has so many buckets is
visited when it has taken some keys, and how many buckets it has then. A new table has none. -/
structure HashTables where
  order : (buckets : Nat) → HashOrder
  grow : (buckets : Nat) → (keys : List Bytes) → Nat
  grow_nil : ∀ buckets, grow buckets [] = buckets

namespace HashTables

def fixed (order : HashOrder) : HashTables :=
  ⟨fun _ => order, fun buckets _ => buckets, fun _ => rfl⟩

def chained (hash : Bytes → Nat) (growth : Nat → Nat) : HashTables where
  order buckets :=
    ⟨fun keys => (HashTable.fill hash growth buckets keys).keys,
      HashTable.fill_perm hash growth buckets⟩
  grow buckets keys := (HashTable.fill hash growth buckets keys).buckets
  grow_nil _ := rfl

/-- However often a table has taken the keys and was cleared, it is visited like a new one. -/
def Steady (tables : HashTables) (keys : List Bytes) : Prop :=
  ∀ n, (tables.order ((tables.grow · keys)^[n] 0)).visit keys = (tables.order 0).visit keys

end HashTables

def HashOrder.arrange (order : HashOrder) (headers : Headers) : Headers :=
  (order.visit (headers.map fst)).filterMap fun key => headers.find? (·.1 = key)

/-! ## Validity -/

def isValidFieldName (name : Bytes) : Bool := name ≠ [] && name.all isTokenChar

def isValidFieldValue (value : Bytes) : Bool := value.all fun c => !isBreak c

/-! ## Parsing -/

def readField (line : Bytes) : Option (Bytes × Bytes) :=
  match line.span (· ≠ colon) with
  | (_, []) => none
  | (fieldName, _ :: fieldValue) =>
    if fieldName = [] then none
    else if fieldName.getLast?.any isOws then none
    else if !fieldName.all isTokenChar then none
    else some (fieldName, trimOws fieldValue)

theorem readField_spec (h : readField line = some f) :
    ∃ raw, line = f.1 ++ colon :: raw ∧ f.2 = trimOws raw ∧ f.1.all isTokenChar = true := by
  unfold readField at h
  split at h
  · cases h
  next name sep raw hspan =>
  split at h
  · cases h
  split at h
  · cases h
  split at h
  · cases h
  next htoken =>
    cases h
    obtain ⟨hline, -⟩ := span_ne_spec hspan
    exact ⟨raw, hline, rfl, by simpa using htoken⟩

theorem not_mem_of_isValidFieldName (h : isValidFieldName name = true) (hc : isTokenChar c = false) :
    c ∉ name := by
  rw [isValidFieldName, Bool.and_eq_true, all_eq_true] at h
  intro hmem
  rw [h.2 c hmem] at hc
  cases hc

theorem readField_append (h : isValidFieldName name = true) (raw : Bytes) :
    readField (name ++ colon :: raw) = some (name, trimOws raw) := by
  have hname := h
  rw [isValidFieldName, Bool.and_eq_true, decide_eq_true_eq] at hname
  have hlast : name.getLast?.any isOws = false := by
    rw [getLast?_eq_some_getLast hname.1, Option.any_some]
    have hmem := getLast_mem hname.1
    rw [isOws, decide_eq_false_iff_not]
    rintro (hspace | htab)
    · rw [hspace] at hmem
      exact not_mem_of_isValidFieldName h (by decide) hmem
    · rw [htab] at hmem
      exact not_mem_of_isValidFieldName h (by decide) hmem
  unfold readField
  rw [span_ne_append (not_mem_of_isValidFieldName h (by decide))]
  dsimp only
  rw [if_neg hname.1, hlast, hname.2]
  rfl

/-- Store a field. A value under the same key is extended. -/
def Headers.store (fieldName fieldValue : Bytes) : Headers → Headers
  | [] => [(fieldName, fieldValue)]
  | (key, value) :: rest =>
    if key = fieldName then (key, value ++ comma :: space :: fieldValue) :: rest
    else (key, value) :: store fieldName fieldValue rest

def parseHeaderField (line : Bytes) (headers : Headers) : Option Headers :=
  (readField line).map fun (fieldName, fieldValue) => headers.store fieldName fieldValue

/-! ## Lookup -/

/-- The entry that `get_header_case_insensitive` finds: the exact name first, otherwise the first
that is visited. -/
def Headers.lookup? (headers : Headers) (name : Bytes) : Option (Bytes × Bytes) :=
  (headers.find? (·.1 = name)).or (headers.find? fun e => ciEqual e.1 name)

def Headers.getHeader (headers : Headers) (name : Bytes) : Option Bytes :=
  (headers.lookup? name).map snd

def contentLength : Bytes := ascii "Content-Length"

def transferEncoding : Bytes := ascii "Transfer-Encoding"

def chunked : Bytes := ascii "chunked"

def Headers.getContentLength (headers : Headers) : Option Nat :=
  (headers.getHeader contentLength).bind parseUint64

def Headers.isChunked (headers : Headers) : Bool :=
  match headers.getHeader transferEncoding with
  | none => false
  | some te => lastCoding te = chunked

/-! ## Validation -/

/-- The loop over the entries: the last Content-Length, if all of them have one value, and the last
Transfer-Encoding. -/
def framingEntries : Headers → (cl te : Option (Bytes × Bytes)) →
    Option (Option (Bytes × Bytes) × Option (Bytes × Bytes))
  | [], cl, te => some (cl, te)
  | e :: rest, cl, te =>
    if ciEqual e.1 contentLength then
      if cl.any (·.2 ≠ e.2) then none else framingEntries rest (some e) te
    else if ciEqual e.1 transferEncoding then framingEntries rest cl (some e)
    else framingEntries rest cl te

/-- The loop over the members of a Content-Length; `first` is the first of them. -/
def commonToken : Option Bytes → List Bytes → Option Bytes
  | first, [] => first
  | first, token :: rest =>
    if token = [] then none
    else if !token.all isDigit then none
    else match first with
      | none => commonToken (some token) rest
      | some t => if token ≠ t then none else commonToken first rest

def Headers.assign (headers : Headers) (key value : Bytes) : Headers :=
  headers.map fun e => if e.1 = key then (e.1, value) else e

def Headers.normalize (headers : Headers) : Option (Bytes × Bytes) → Option Headers
  | none => some headers
  | some (key, value) => (commonToken none (members value)).map (headers.assign key)

/-- The headers with Content-Length in normal form; `none` if they are refused. -/
def validateFramingHeaders (headers : Headers) : Option Headers := do
  let (cl, te) ← framingEntries headers none none
  let headers ← headers.normalize cl
  if cl.isSome ∧ te.isSome then none
  else if te.any fun e => lastCoding e.2 ≠ chunked then none
  else some headers

/-! ## What the table holds -/

def Headers.ofFields (fields : List (Bytes × Bytes)) : Headers :=
  fields.foldl (fun headers f => headers.store f.1 f.2) []

namespace Headers

variable {headers : Headers} (fields : List (Bytes × Bytes))

/-- The entry under the field's exact name has the field's members. -/
def Covers (headers : Headers) (f : Bytes × Bytes) : Prop :=
  ∃ value, (f.1, value) ∈ headers ∧ members f.2 ⊆ members value

theorem covers_store_self (headers : Headers) (f : Bytes × Bytes) :
    (headers.store f.1 f.2).Covers f := by
  induction headers with
  | nil => exact ⟨f.2, mem_singleton_self _, List.Subset.refl _⟩
  | cons e rest ih =>
    unfold store
    split
    next heq =>
      rw [heq]
      refine ⟨_, mem_cons_self, ?_⟩
      rw [members_join]
      exact subset_append_right _ _
    · obtain ⟨value, hmem, hsub⟩ := ih
      exact ⟨value, mem_cons_of_mem _ hmem, hsub⟩

theorem Covers.store (h : headers.Covers f) (fieldName fieldValue : Bytes) :
    (headers.store fieldName fieldValue).Covers f := by
  obtain ⟨value, hmem, hsub⟩ := h
  induction headers with
  | nil => cases hmem
  | cons e rest ih =>
    unfold Headers.store
    split
    next heq =>
      obtain rfl | hmem := mem_cons.mp hmem
      · refine ⟨_, mem_cons_self, ?_⟩
        rw [members_join]
        exact List.Subset.trans hsub (subset_append_left _ _)
      · exact ⟨value, mem_cons_of_mem _ hmem, hsub⟩
    next hne =>
      obtain rfl | hmem := mem_cons.mp hmem
      · exact ⟨value, mem_cons_self, hsub⟩
      · obtain ⟨value', hmem', hsub'⟩ := ih hmem
        exact ⟨value', mem_cons_of_mem _ hmem', hsub'⟩

theorem keys_store (headers : Headers) (fieldName fieldValue : Bytes) :
    (headers.store fieldName fieldValue).map fst =
      if fieldName ∈ headers.map fst then headers.map fst
      else headers.map fst ++ [fieldName] := by
  induction headers with
  | nil => rfl
  | cons e rest ih =>
    unfold store
    by_cases heq : e.1 = fieldName
    · rw [if_pos heq]
      simp [heq]
    rw [if_neg heq, map_cons, ih]
    have hmem : fieldName ∈ List.map fst (e :: rest) ↔ fieldName ∈ rest.map fst := by
      rw [map_cons, mem_cons, or_iff_right (Ne.symm heq)]
    simp only [hmem]
    split
    · rfl
    · rfl

theorem store_of_not_mem (h : fieldName ∉ headers.map fst) (fieldValue : Bytes) :
    headers.store fieldName fieldValue = headers ++ [(fieldName, fieldValue)] := by
  induction headers with
  | nil => rfl
  | cons e rest ih =>
    rw [map_cons, mem_cons, not_or] at h
    rw [store, if_neg (Ne.symm h.1), ih h.2, cons_append]

theorem mem_store (h : e ∈ headers.store fieldName fieldValue) :
    e ∈ headers ∨ e.2 = fieldValue ∨
      ∃ value, (e.1, value) ∈ headers ∧ e.2 = value ++ comma :: space :: fieldValue := by
  induction headers with
  | nil =>
    rw [mem_singleton.mp h]
    exact .inr (.inl rfl)
  | cons e' rest ih =>
    unfold store at h
    split at h
    · obtain rfl | h := mem_cons.mp h
      · exact .inr (.inr ⟨e'.2, mem_cons_self, rfl⟩)
      · exact .inl (mem_cons_of_mem _ h)
    obtain rfl | h := mem_cons.mp h
    · exact .inl mem_cons_self
    obtain h | h | ⟨value, hmem, h⟩ := ih h
    · exact .inl (mem_cons_of_mem _ h)
    · exact .inr (.inl h)
    · exact .inr (.inr ⟨value, mem_cons_of_mem _ hmem, h⟩)

theorem nodup_store (h : (headers.map fst).Nodup) (fieldName fieldValue : Bytes) :
    ((headers.store fieldName fieldValue).map fst).Nodup := by
  rw [keys_store]
  split
  · exact h
  next hnew => exact h.append (nodup_singleton _) (disjoint_singleton.mpr hnew)

theorem ofFields_invariant {P : List (Bytes × Bytes) → Headers → Prop} (hnil : P [] [])
    (hstore : ∀ fields headers f, P fields headers →
      P (fields ++ [f]) (headers.store f.1 f.2)) (fields : List (Bytes × Bytes)) :
    P fields (ofFields fields) := by
  induction fields using List.reverseRecOn with
  | nil => exact hnil
  | append_singleton fields f ih =>
    unfold ofFields at ih ⊢
    rw [foldl_append]
    exact hstore fields _ f ih

theorem nodup_ofFields : ((ofFields fields).map fst).Nodup :=
  ofFields_invariant (P := fun _ headers => (headers.map fst).Nodup) nodup_nil
    (fun _ _ f h => nodup_store h f.1 f.2) fields

theorem covers_ofFields : ∀ f ∈ fields, (ofFields fields).Covers f := by
  refine ofFields_invariant (P := fun fields headers => ∀ f ∈ fields, headers.Covers f)
    (fun f hf => nomatch hf) ?_ fields
  intro fields headers g h
  refine forall_mem_append.mpr ⟨fun f hf => (h f hf).store g.1 g.2, ?_⟩
  exact forall_mem_singleton.mpr (headers.covers_store_self g)

theorem key_mem_ofFields : ∀ e ∈ ofFields fields, e.1 ∈ fields.map fst := by
  refine ofFields_invariant (P := fun fields headers => ∀ e ∈ headers, e.1 ∈ fields.map fst)
    (fun e he => nomatch he) ?_ fields
  intro fields headers f h e he
  have hkey : e.1 ∈ (headers.store f.1 f.2).map fst := mem_map_of_mem he
  rw [keys_store] at hkey
  rw [map_append, mem_append]
  split at hkey
  · obtain ⟨e', he', heq⟩ := mem_map.mp hkey
    exact .inl (heq ▸ h e' he')
  obtain hkey | hkey := mem_append.mp hkey
  · obtain ⟨e', he', heq⟩ := mem_map.mp hkey
    exact .inl (heq ▸ h e' he')
  · exact .inr hkey

end Headers

theorem HashOrder.mem_arrange (order : HashOrder) (hnodup : (headers.map fst).Nodup) :
    e ∈ order.arrange headers ↔ e ∈ headers := by
  have hfind (e : Bytes × Bytes) (he : e ∈ headers) :
      headers.find? (·.1 = e.1) = some e := by
    have hsome : (headers.find? (·.1 = e.1)).isSome := by
      rw [find?_isSome]
      exact ⟨e, he, decide_eq_true rfl⟩
    obtain ⟨e', he'⟩ := Option.isSome_iff_exists.mp hsome
    have hkey : e'.1 = e.1 := by simpa using find?_some he'
    rw [he', inj_on_of_nodup_map hnodup (mem_of_find?_eq_some he') he hkey]
  unfold arrange
  rw [mem_filterMap]
  constructor
  · rintro ⟨key, -, hkey⟩
    exact mem_of_find?_eq_some hkey
  · intro he
    exact ⟨e.1, (order.perm _).mem_iff.mpr (mem_map_of_mem he), hfind e he⟩

/-! ## What the lookups find -/

namespace Headers

theorem lookup?_spec {headers : Headers} (h : headers.lookup? name = some e) :
    e ∈ headers ∧ ciEqual e.1 name = true := by
  obtain h | ⟨-, h⟩ := Option.or_eq_some_iff.mp h
  · have hname : e.1 = name := by simpa using find?_some h
    exact ⟨mem_of_find?_eq_some h, decide_eq_true (by rw [hname])⟩
  · have hname : ciEqual e.1 name = true := by simpa using find?_some h
    exact ⟨mem_of_find?_eq_some h, hname⟩

theorem exists_lookup? {headers : Headers} (he : e ∈ headers) (hname : ciEqual e.1 name = true) :
    ∃ e', headers.lookup? name = some e' := by
  have hsome : (headers.find? fun e => ciEqual e.1 name).isSome := by
    rw [find?_isSome]
    exact ⟨e, he, hname⟩
  apply Option.isSome_iff_exists.mp
  unfold lookup?
  rw [Option.isSome_or, hsome, Bool.or_true]

theorem exists_getHeader {headers : Headers} (he : e ∈ headers)
    (hname : ciEqual e.1 name = true) : ∃ e' ∈ headers, ciEqual e'.1 name = true ∧
      headers.getHeader name = some e'.2 := by
  obtain ⟨e', he'⟩ := exists_lookup? he hname
  obtain ⟨hmem, hname'⟩ := lookup?_spec he'
  exact ⟨e', hmem, hname', by rw [getHeader, he', Option.map_some]⟩

/-- Writing a value moves no entry. -/
theorem lookup?_assign (headers : Headers) (key value name : Bytes) :
    (headers.assign key value).lookup? name =
      (headers.lookup? name).map fun e => if e.1 = key then (e.1, value) else e := by
  have hkey (e : Bytes × Bytes) : (if e.1 = key then (e.1, value) else e).1 = e.1 := by
    split
    · rfl
    · rfl
  unfold lookup? assign
  rw [find?_map, find?_map, ← Option.map_or]
  simp only [Function.comp_def, hkey]

def last? (headers : Headers) (name : Bytes) : Option (Bytes × Bytes) :=
  (headers.filter fun e => ciEqual e.1 name).getLast?

end Headers

theorem Headers.last?_cons_of_pos {e : Bytes × Bytes} (h : ciEqual e.1 name = true)
    (headers : Headers) : last? (e :: headers) name = (last? headers name).or (some e) := by
  unfold last?
  rw [filter_cons, if_pos h, getLast?_cons]
  cases (headers.filter fun e => ciEqual e.1 name).getLast? with
  | none => rfl
  | some e' => rfl

theorem Headers.last?_cons_of_neg {e : Bytes × Bytes} (h : ciEqual e.1 name = false)
    (headers : Headers) : last? (e :: headers) name = last? headers name := by
  unfold last?
  rw [filter_cons_of_neg (by simp [h])]

/-- The loop comes to its end exactly if one text stands in all Content-Length entries. -/
theorem framingEntries_eq_some_iff : framingEntries headers cl te = some p ↔
    (∃ value, (∀ c ∈ cl, c.2 = value) ∧
        ∀ e ∈ headers, ciEqual e.1 contentLength = true → e.2 = value) ∧
      ((Headers.last? headers contentLength).or cl,
        (Headers.last? headers transferEncoding).or te) = p := by
  induction headers generalizing cl te with
  | nil =>
    refine Option.some_inj.trans (and_iff_right ⟨(cl.map snd).getD [], ?_, nofun⟩).symm
    rintro c rfl
    rfl
  | cons e rest ih =>
    unfold framingEntries
    simp only [forall_mem_cons]
    split
    next hcl =>
      rw [Headers.last?_cons_of_pos hcl, Headers.last?_cons_of_neg (ciEqual_trans_ne hcl (by decide)),
        Option.or_assoc]
      have hsame : cl.any (·.2 ≠ e.2) = false ↔ ∀ c ∈ cl, c.2 = e.2 := by
        cases cl <;> simp
      split
      next hdiffers =>
        refine iff_of_false nofun ?_
        rintro ⟨⟨value, hvalue, he, -⟩, -⟩
        rw [hsame.mpr fun c hc => (hvalue c hc).trans (he hcl).symm] at hdiffers
        cases hdiffers
      next hdiffers =>
        have hsame := hsame.mp (Bool.eq_false_iff.mpr hdiffers)
        refine ih.trans (and_congr_left' (exists_congr fun value => ⟨?_, ?_⟩))
        · rintro ⟨he, hrest⟩
          exact ⟨fun c hc => (hsame c hc).trans (he e rfl), fun _ => he e rfl, hrest⟩
        · rintro ⟨-, he, hrest⟩
          exact ⟨fun c hc => Option.mem_some.mp hc ▸ he hcl, hrest⟩
    next hcl =>
      rw [Headers.last?_cons_of_neg (Bool.eq_false_iff.mpr hcl)]
      simp only [hcl, Bool.false_eq_true, false_implies, true_and]
      split
      next hte =>
        rw [ih, Headers.last?_cons_of_pos hte, Option.or_assoc]
        rfl
      next hte =>
        rw [ih, Headers.last?_cons_of_neg (Bool.eq_false_iff.mpr hte)]

theorem commonToken_spec (h : commonToken first tokens = some t) :
    (∀ token ∈ tokens, token = t ∧ token ≠ [] ∧ token.all isDigit = true) ∧
      ∀ t' ∈ first, t' = t := by
  induction tokens generalizing first with
  | nil => exact ⟨forall_mem_nil _, fun t' ht' => Option.mem_unique ht' h⟩
  | cons token rest ih =>
    unfold commonToken at h
    split at h
    · cases h
    next hne =>
    split at h
    · cases h
    next hdigits =>
    have hdigits : token.all isDigit = true := by simpa using hdigits
    have hcons (hrest : ∀ token ∈ rest, token = t ∧ token ≠ [] ∧ token.all isDigit = true)
        (heq : token = t) :
        ∀ token' ∈ token :: rest, token' = t ∧ token' ≠ [] ∧ token'.all isDigit = true := by
      intro token' hm
      obtain rfl | hm := mem_cons.mp hm
      · exact ⟨heq, hne, hdigits⟩
      · exact hrest token' hm
    cases first with
    | none =>
      obtain ⟨hrest, hfirst⟩ := ih h
      exact ⟨hcons hrest (hfirst token rfl), fun t' ht' => nomatch ht'⟩
    | some t₀ =>
      dsimp only at h
      split at h
      · cases h
      next hsame =>
        obtain ⟨hrest, hfirst⟩ := ih h
        exact ⟨hcons hrest ((not_not.mp hsame).trans (hfirst t₀ rfl)), hfirst⟩

/-- What the validator lets through, and what it makes of it. -/
inductive Validated (headers : Headers) : Headers → Prop where
  | unsized (h : ∀ e ∈ headers, ciEqual e.1 contentLength = false) : Validated headers headers
  | sized (hlast : headers.last? contentLength = some last)
      (hvalue : ∀ e ∈ headers, ciEqual e.1 contentLength = true → e.2 = last.2)
      (hte : ∀ e ∈ headers, ciEqual e.1 transferEncoding = false)
      (htoken : ∀ m ∈ members last.2, m = token) (hnum : decimal token = some n) :
      Validated headers (headers.assign last.1 token)

theorem Headers.last?_eq_none_iff {headers : Headers} :
    headers.last? name = none ↔ ∀ e ∈ headers, ciEqual e.1 name = false := by
  unfold last?
  rw [getLast?_eq_none_iff, filter_eq_nil_iff]
  simp only [Bool.not_eq_true]

theorem Headers.last?_spec {headers : Headers} (h : headers.last? name = some e) :
    e ∈ headers ∧ ciEqual e.1 name = true := by
  exact mem_filter.mp (mem_of_getLast? h)

theorem Validated.covers (h : Validated headers headers') (hc : headers.Covers f) :
    headers'.Covers f := by
  cases h with
  | unsized => exact hc
  | @sized last token n hlast hvalue _ htoken hnum =>
    obtain ⟨value, hmem, hsub⟩ := hc
    have hassign := mem_map_of_mem (f := fun e : Bytes × Bytes =>
      if e.1 = last.1 then (e.1, token) else e) hmem
    split at hassign
    next hkey =>
      have hname : ciEqual f.1 contentLength = true := by
        rw [hkey]
        exact (Headers.last?_spec hlast).2
      have heq : value = last.2 := hvalue _ hmem hname
      refine ⟨token, hassign, fun m hm => ?_⟩
      rw [members_digits (decimal_eq_some hnum), mem_singleton]
      exact htoken m (heq ▸ hsub hm)
    · exact ⟨value, hassign, hsub⟩

theorem validated_of_validateFramingHeaders (h : validateFramingHeaders headers = some headers') :
    Validated headers headers' := by
  unfold validateFramingHeaders at h
  simp only [Option.bind_eq_bind, Option.bind_eq_some_iff] at h
  obtain ⟨⟨cl, te⟩, hentries, assigned, hassigned, h⟩ := h
  obtain ⟨⟨value, -, hvalue⟩, heq⟩ := framingEntries_eq_some_iff.mp hentries
  rw [Option.or_none, Option.or_none] at heq
  obtain ⟨hcl, hte⟩ := mk.inj heq
  split at h
  · cases h
  next hboth =>
  split at h
  · cases h
  cases h
  cases cl with
  | none =>
    cases hassigned
    exact .unsized (Headers.last?_eq_none_iff.mp hcl)
  | some last =>
    obtain ⟨token, htoken, rfl⟩ := Option.map_eq_some_iff.mp hassigned
    obtain ⟨hall, -⟩ := commonToken_spec htoken
    obtain ⟨m, hm⟩ := exists_mem_of_ne_nil _ (members_ne_nil last.2)
    obtain ⟨rfl, hne, hdigits⟩ := hall m hm
    have hnone : te = none := by
      cases te with
      | none => rfl
      | some e => exact absurd ⟨rfl, rfl⟩ hboth
    obtain ⟨hlast, hname⟩ := Headers.last?_spec hcl
    refine .sized hcl ?_ (Headers.last?_eq_none_iff.mp (hte.trans hnone))
      (fun m hm => (hall m hm).1) (if_pos ⟨hne, hdigits⟩)
    exact fun e he h => (hvalue e he h).trans (hvalue last hlast hname).symm

end Spaznet.Http
