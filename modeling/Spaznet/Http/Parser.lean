import Spaznet.Http.Chunked
import Spaznet.Http.Headers

/-!
# Parsing a request

`parse_request`: the end of the header block, the request line, the fields up to the first empty
line, the check of the framing fields, and the body.
-/

namespace Spaznet.Http

open Ascii List Option

def kMaxHeaderBytes : Nat := 16 * 1024

def kMaxHeaders : Nat := 100

structure HTTPRequest where
  method : Bytes
  requestTarget : Bytes
  version : Bytes
  headers : Headers := []
  body : Bytes := []
  deriving DecidableEq

/-! ## The header block -/

inductive HeaderEndState where
  | found (headerEnd : Nat)
  | incomplete
  | tooLarge
  deriving DecidableEq

/-- The loop of `find_header_end` at position `i`. A lone CR or LF keeps `foundCrlf`. -/
def scanHeaderEnd : (foundCrlf : Bool) → (i : Nat) → Bytes → Option Nat
  | foundCrlf, i, b :: b' :: rest =>
    if b = cr ∧ b' = lf then
      if foundCrlf then some (i + 2) else scanHeaderEnd true (i + 2) rest
    else if b ≠ cr ∧ b ≠ lf then scanHeaderEnd false (i + 1) (b' :: rest)
    else scanHeaderEnd foundCrlf (i + 1) (b' :: rest)
  | _, _, _ => none

def findHeaderEnd (buffer : Bytes) (maxBytes : Nat) : HeaderEndState :=
  match scanHeaderEnd false 0 (buffer.take maxBytes) with
  | some headerEnd => .found headerEnd
  | none => if buffer.length ≥ maxBytes then .tooLarge else .incomplete

/-! ## Lines -/

def parseRequestLine (line : Bytes) : Option HTTPRequest :=
  match line.span (· ≠ space) with
  | (_, []) => none
  | (method, _ :: rest) =>
    if !method.all isTokenChar then none
    else match rest.span (· ≠ space) with
      | (_, []) => none
      | (requestTarget, _ :: version) =>
        if version.take 5 ≠ ascii "HTTP/" then none
        else some { method, requestTarget, version := version.drop 5 }

/-- The loop over the field lines; an empty one ends it. -/
def parseHeaderLines : (headerCount : Nat) → List Bytes → Headers → Option Headers
  | _, [], headers => some headers
  | headerCount, line :: lines, headers =>
    if dropCr line = [] then some headers
    else if headerCount + 1 > kMaxHeaders then none
    else match parseHeaderField (dropCr line) headers with
      | none => none
      | some headers => parseHeaderLines (headerCount + 1) lines headers

def parseHead (order : HashOrder) (block : Bytes) : Option HTTPRequest :=
  match getlines lf block with
  | [] => none
  | line :: lines => do
    let request ← parseRequestLine (dropCr line)
    let headers ← parseHeaderLines 0 lines []
    let headers ← validateFramingHeaders (order.arrange headers)
    some { request with headers }

/-! ## The request -/

def parseBody (buffer : Bytes) (headerEnd : Nat) (request : HTTPRequest) :
    ParseResult (HTTPRequest × Nat) :=
  match request.headers.getContentLength with
  | some bodySize =>
    if bodySize > kMaxBodySize then .error
    else if buffer.length < headerEnd + bodySize then .incomplete
    else
      let body := (buffer.drop headerEnd).take bodySize
      .success ({ request with body }, headerEnd + bodySize)
  | none =>
    if request.headers.isChunked then
      match parseChunkedBody (buffer.drop headerEnd) with
      | .success (body, chunkBytes) => .success ({ request with body }, headerEnd + chunkBytes)
      | .incomplete => .incomplete
      | .error => .error
    else .success (request, headerEnd)

def parseRequest (order : HashOrder) (buffer : Bytes) : ParseResult (HTTPRequest × Nat) :=
  match findHeaderEnd buffer kMaxHeaderBytes with
  | .incomplete => .incomplete
  | .tooLarge => .error
  | .found headerEnd =>
    match parseHead order (buffer.take headerEnd) with
    | none => .error
    | some request => parseBody buffer headerEnd request

/-! ## The field lines -/

def fieldLines (block : Bytes) : List Bytes := ((getlines lf block).drop 1).map dropCr

def readFields (block : Bytes) : List (Bytes × Bytes) :=
  ((fieldLines block).takeWhile (· ≠ [])).filterMap readField

/-- What the table of a request holds once the header block is there. -/
def storedKeys (buffer : Bytes) : List Bytes :=
  match findHeaderEnd buffer kMaxHeaderBytes with
  | .found headerEnd => (Headers.ofFields (readFields (buffer.take headerEnd))).map Prod.fst
  | .incomplete | .tooLarge => []

theorem parseHeaderLines_spec (h : parseHeaderLines n lines headers = some headers') :
    (∀ line ∈ (lines.map dropCr).takeWhile (· ≠ []), ∃ f, readField line = some f) ∧
      headers' = (((lines.map dropCr).takeWhile (· ≠ [])).filterMap readField).foldl
        (fun headers f => headers.store f.1 f.2) headers := by
  induction lines generalizing n headers with
  | nil => exact ⟨forall_mem_nil _, (Option.some.inj h).symm⟩
  | cons line lines ih =>
    unfold parseHeaderLines at h
    rw [map_cons]
    split at h
    next hempty =>
      rw [takeWhile_cons_of_neg (by simp [hempty])]
      exact ⟨forall_mem_nil _, (Option.some.inj h).symm⟩
    next hline =>
      rw [takeWhile_cons_of_pos (by simp [hline])]
      split at h
      · cases h
      split at h
      · cases h
      next stored hstored =>
      obtain ⟨f, hf, rfl⟩ := map_eq_some_iff.mp hstored
      obtain ⟨hlines, hfields⟩ := ih h
      rw [filterMap_cons_some hf]
      exact ⟨forall_mem_cons.mpr ⟨⟨f, hf⟩, hlines⟩, hfields⟩

/-- A line that is cut behind a token and behind a target. -/
structure Splits (line : Bytes) (request : HTTPRequest) : Prop where
  line_eq : line = request.method ++ space :: (request.requestTarget ++
    space :: (ascii "HTTP/" ++ request.version))
  token : request.method.all isTokenChar = true
  target : space ∉ request.requestTarget
  headers : request.headers = []
  body : request.body = []

theorem splits_of_parseRequestLine (h : parseRequestLine line = some request) :
    Splits line request := by
  unfold parseRequestLine at h
  split at h
  · cases h
  next method _ rest hmethod =>
  obtain ⟨rfl, -⟩ := span_ne_spec hmethod
  split at h
  · cases h
  next htoken =>
  split at h
  · cases h
  next target _ version htarget =>
  obtain ⟨rfl, hspace⟩ := span_ne_spec htarget
  split at h
  · cases h
  next hhttp =>
  cases h
  refine ⟨?_, by simpa using htoken, hspace, rfl, rfl⟩
  rw [← not_not.mp hhttp, take_append_drop]

/-- The headers that the validator sees are the fields before the first empty line, and all lines
before it are fields. -/
theorem parseHead_spec (h : parseHead order block = some request) :
    validateFramingHeaders (order.arrange (.ofFields (readFields block))) = some request.headers ∧
      request.body = [] ∧
      ∀ line ∈ (fieldLines block).takeWhile (· ≠ []), ∃ f, readField line = some f := by
  unfold parseHead at h
  split at h
  · cases h
  next line lines hlines =>
    simp only [bind_eq_bind, bind_eq_some_iff, Option.some.injEq] at h
    obtain ⟨request', hline, headers, hheaders, headers', hvalid, rfl⟩ := h
    obtain ⟨hread, hfields⟩ := parseHeaderLines_spec hheaders
    unfold readFields fieldLines
    rw [hlines, drop_one, tail_cons, Headers.ofFields, ← hfields]
    exact ⟨hvalid, (splits_of_parseRequestLine hline).body, hread⟩

theorem parseHead_congr (h : order'.visit ((Headers.ofFields (readFields block)).map Prod.fst) =
      order.visit ((Headers.ofFields (readFields block)).map Prod.fst)) :
    parseHead order' block = parseHead order block := by
  unfold parseHead
  unfold readFields fieldLines at h
  split
  · rfl
  next line lines hlines =>
    cases hheaders : parseHeaderLines 0 lines [] with
    | none => rfl
    | some headers =>
      rw [hlines, drop_one, tail_cons, Headers.ofFields, ← (parseHeaderLines_spec hheaders).2] at h
      simp only [bind_eq_bind, bind_some, HashOrder.arrange, h]

/-- The parser sees no more of a table than the order of the keys. -/
theorem parseRequest_congr
    (h : order'.visit (storedKeys buffer) = order.visit (storedKeys buffer)) :
    parseRequest order' buffer = parseRequest order buffer := by
  unfold parseRequest
  unfold storedKeys at h
  split
  · rfl
  · rfl
  next headerEnd hend =>
    rw [hend] at h
    rw [parseHead_congr h]

end Spaznet.Http
