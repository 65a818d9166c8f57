import Mathlib.Data.List.Infix
import Spaznet.Http.Parser

/-!
# Responses

How a response is written, with a length or in one chunk, and how `parse_response` reads it. The
headers are listed in the order in which the table visits them.
-/

namespace Spaznet.Http

open Ascii

structure HTTPResponse where
  version : Bytes := ascii "1.1"
  statusCode : Int := 200
  reasonPhrase : Bytes := ascii "OK"
  headers : Headers := []
  body : Bytes := []
  deriving DecidableEq

/-! ## Numbers -/

/-- A number as an output stream writes it, in base 10 or 16. -/
def numeral (base n : Nat) : Bytes := (Nat.toDigits base n).map Char.toUInt8

def intText : Int → Bytes
  | .ofNat n => numeral 10 n
  | .negSucc n => ascii "-" ++ numeral 10 (n + 1)

/-- The loop of `parse_int`, which stops beyond the magnitude of `INT_MIN`. -/
def parseMagnitude : Nat → Bytes → Option Nat
  | result, [] => some result
  | result, c :: rest =>
    if !isDigit c then none
    else
      let result := result * 10 + (c.toNat - 0x30)
      if result > 2 ^ 31 then none else parseMagnitude result rest

/-- The sign in front of a number, and what follows it. -/
def splitSign (value : Bytes) : Bool × Bytes :=
  match value with
  | [] => (false, [])
  | c :: rest => if c = 0x2b ∨ c = 0x2d then (c = 0x2d, rest) else (false, value)

def checkInt (negative : Bool) (n : Nat) : Option Int :=
  let result : Int := if negative then -n else n
  if result < -2 ^ 31 ∨ result > 2 ^ 31 - 1 then none else some result

def parseInt (value : Bytes) : Option Int :=
  let (negative, digits) := splitSign value
  if digits = [] then none else (parseMagnitude 0 digits).bind (checkInt negative)

/-- `std::stoi`: leading whitespace and trailing text are passed over. -/
def stoi (value : Bytes) : Option Int :=
  let (negative, rest) := splitSign (value.dropWhile fun c => c = space ∨ 0x09 ≤ c ∧ c ≤ 0x0d)
  let digits := rest.takeWhile isDigit
  if digits = [] then none else checkInt negative (digitsFrom 0 digits)

/-! ## Writing -/

/-- `headers[key] = value`. Where a new entry is visited is up to the table. -/
def Headers.set (order : HashOrder) (headers : Headers) (key value : Bytes) : Headers :=
  if key ∈ headers.map Prod.fst then headers.assign key value
  else order.arrange (headers ++ [(key, value)])

def HTTPResponse.setHeader (order : HashOrder) (response : HTTPResponse) (key value : Bytes) :
    HTTPResponse :=
  { response with headers := response.headers.set order key value }

def fieldLine (e : Bytes × Bytes) : Bytes := e.1 ++ ascii ": " ++ e.2

def fieldText (fields : Headers) : Bytes := fields.flatMap fun e => fieldLine e ++ crlf

/-- The entries that are written; the others would break the message and are dropped. -/
def Headers.emitted (headers : Headers) : Headers :=
  headers.filter fun e => isValidFieldName e.1 && isValidFieldValue e.2

def statusForbidsBody (statusCode : Int) : Bool :=
  100 ≤ statusCode ∧ statusCode < 200 ∨ statusCode = 204 ∨ statusCode = 304

namespace HTTPResponse

variable (response : HTTPResponse)

def statusLine : Bytes :=
  ascii "HTTP/" ++ response.version ++ space :: (intText response.statusCode ++
    space :: response.reasonPhrase)

def head (fields : Headers) : Bytes :=
  response.statusLine ++ crlf ++ fieldText fields ++ crlf

/-- The fields of a response with a length. Content-Length is added, unless an entry with exactly
that name or with the name Transfer-Encoding is there. -/
def lengthFields : Headers :=
  response.headers.emitted ++
    if ¬ statusForbidsBody response.statusCode ∧ contentLength ∉ response.headers.map Prod.fst ∧
        transferEncoding ∉ response.headers.map Prod.fst then
      [(contentLength, numeral 10 response.body.length)]
    else []

def serialize : Bytes := response.head response.lengthFields ++ response.body

/-- The fields of a chunked response. Transfer-Encoding is added, unless one is written. -/
def chunkedFields : Headers :=
  response.headers.emitted ++
    if response.headers.emitted.any fun e => toLower e.1 = toLower transferEncoding then []
    else [(transferEncoding, chunked)]

def chunkedBody : Bytes :=
  (if response.body = [] then []
    else numeral 16 response.body.length ++ crlf ++ response.body ++ crlf) ++ ascii "0\r\n\r\n"

def serializeChunked : Bytes := response.head response.chunkedFields ++ response.chunkedBody

/-- The serialiser of the dispatchers looks for the word chunked. -/
def serializeResponse : Bytes :=
  match response.headers.getHeader transferEncoding with
  | none => response.serialize
  | some te =>
    if chunked <:+: toLower te then response.serializeChunked else response.serialize

end HTTPResponse

/-! ## Parsing -/

def parseStatusLine (line : Bytes) : Option HTTPResponse :=
  if line.take 5 ≠ ascii "HTTP/" then none
  else match (line.drop 5).span (· ≠ space) with
    | (_, []) => none
    | (version, _ :: rest) =>
      match rest.span (· ≠ space) with
      | (code, []) =>
        (stoi code).map fun statusCode => { version, statusCode, reasonPhrase := [] }
      | (code, _ :: reasonPhrase) =>
        (parseInt code).map fun statusCode => { version, statusCode, reasonPhrase }

def parseResponseHead (order : HashOrder) (block : Bytes) : Option HTTPResponse :=
  match getlines lf block with
  | [] => none
  | line :: lines => do
    let response ← parseStatusLine (dropCr line)
    let headers ← parseHeaderLines 0 lines []
    let headers ← validateFramingHeaders (order.arrange headers)
    some { response with headers }

/-- The body behind the header block. Unlike in a request, a Content-Length that is no number and a
coding other than chunked are errors. -/
def parseResponseBody (buffer : Bytes) (headerEnd : Nat) (response : HTTPResponse) :
    ParseResult (HTTPResponse × Nat) :=
  match response.headers.getHeader contentLength with
  | some value =>
    match parseUint64 value with
    | none => .error
    | some bodySize =>
      if bodySize > kMaxBodySize then .error
      else if buffer.length < headerEnd + bodySize then .incomplete
      else
        let body := (buffer.drop headerEnd).take bodySize
        .success ({ response with body }, headerEnd + bodySize)
  | none =>
    match response.headers.getHeader transferEncoding with
    | none => .success (response, headerEnd)
    | some te =>
      if lastCoding te ≠ chunked then .error
      else match parseChunkedBody (buffer.drop headerEnd) with
        | .success (body, chunkBytes) => .success ({ response with body }, headerEnd + chunkBytes)
        | .incomplete => .incomplete
        | .error => .error

def parseResponse (order : HashOrder) (buffer : Bytes) : ParseResult (HTTPResponse × Nat) :=
  match findHeaderEnd buffer kMaxHeaderBytes with
  | .incomplete => .incomplete
  | .tooLarge => .error
  | .found headerEnd =>
    match parseResponseHead order (buffer.take headerEnd) with
    | none => .error
    | some response => parseResponseBody buffer headerEnd response

end Spaznet.Http
