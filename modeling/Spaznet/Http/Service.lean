import Spaznet.Http.Extension
import Spaznet.Http.Response

/-!
# Serving requests

What both dispatchers of HTTP/1.1 do with a request: whether the connection is kept, how an answer
goes out, and which requests a stream of bytes holds.
-/

namespace Spaznet.Http

open Ascii List

def connection : Bytes := ascii "Connection"

def kMaxRequestBytes : Nat := 1024 * 1024

def HTTPRequest.shouldKeepAlive (request : HTTPRequest) : Bool :=
  match request.headers.getHeader connection with
  | some value =>
    let parts := (getlines comma (toLower value)).map trimOws
    if ascii "close" ∈ parts then false
    else if request.version = ascii "1.0" then ascii "keep-alive" ∈ parts
    else if request.version = ascii "1.1" then true
    else ascii "keep-alive" ∈ parts
  | none => request.version = ascii "1.1"

def answerBytes (order : HashOrder) (request : HTTPRequest) (response : HTTPResponse) : Bytes :=
  let value := if request.shouldKeepAlive then ascii "keep-alive" else ascii "close"
  (response.setHeader order connection value).serializeResponse

def errorBytes (order : HashOrder) (statusCode : Int) (reason : Bytes) : Bytes :=
  let response : HTTPResponse := { version := ascii "1.1", statusCode, reasonPhrase := reason }
  ((response.setHeader order connection (ascii "close")).setHeader order contentLength
    (ascii "0")).serialize

def badRequest (order : HashOrder) : Bytes := errorBytes order 400 (ascii "Bad Request")

/-- What a call of the handler does: the response it completes the writer with before it returns,
and whether it throws. -/
structure HandlerCall where
  response : Option HTTPResponse := none
  throws : Bool := false
  deriving DecidableEq

abbrev Handler := (past : List HTTPRequest) → HTTPRequest → HandlerCall

theorem serializeResponse_ne_nil (response : HTTPResponse) : response.serializeResponse ≠ [] := by
  unfold HTTPResponse.serializeResponse
  split
  · exact cons_ne_nil _ _
  · split
    all_goals exact cons_ne_nil _ _

theorem answerBytes_ne_nil (order : HashOrder) (request : HTTPRequest) (response : HTTPResponse) :
    answerBytes order request response ≠ [] :=
  serializeResponse_ne_nil _

theorem badRequest_ne_nil (order : HashOrder) : badRequest order ≠ [] := cons_ne_nil _ _

/-! ## Requests on a stream -/

theorem parseRequest_pos (h : parseRequest order buffer = .success (request, consumed)) :
    0 < consumed := by
  have hempty : parseRequest order [] = .incomplete := rfl
  exact parseRequest_incomplete hempty h

/-- The stream begins with these requests, one behind the other. -/
inductive Pipelined (order : HashOrder) : Bytes → List HTTPRequest → (rest : Bytes) → Prop where
  | nil : Pipelined order stream [] stream
  | cons : parseRequest order stream = .success (request, consumed) →
    Pipelined order (stream.drop consumed) requests rest →
    Pipelined order stream (request :: requests) rest

namespace Pipelined

section
variable (h : Pipelined order stream requests rest)
include h

theorem append (more : Bytes) : Pipelined order (stream ++ more) requests (rest ++ more) := by
  induction h with
  | nil => exact .nil
  | cons hparse _ ih =>
    refine .cons ((parseRequest_append (by rw [hparse]; nofun) more).trans hparse) ?_
    rw [drop_append_of_le_length (parseRequest_le hparse)]
    exact ih

theorem length_le : rest.length ≤ stream.length := by
  induction h with
  | nil => exact Nat.le_refl _
  | cons _ _ ih =>
    rw [length_drop] at ih
    omega

theorem snoc (hparse : parseRequest order rest = .success (request, consumed)) :
    Pipelined order stream (requests ++ [request]) (rest.drop consumed) := by
  induction h with
  | nil => exact .cons hparse .nil
  | cons hfirst _ ih => exact .cons hfirst (ih hparse)

end

end Pipelined

end Spaznet.Http
