import Spaznet.Http.Parser

/-!
# Request lines

What `parse_request_line` accepts, against the grammar. The parser looks for two spaces and for
`HTTP/`, but asks for no character before either space, and for no version.
-/

namespace Spaznet.Http

open Ascii List

/-- The parts of a request line as the grammar has them, next to what `Splits` says. -/
structure WellFormed (request : HTTPRequest) : Prop where
  method : request.method ≠ []
  target : request.requestTarget ≠ []
  version : ∃ major minor, isDigit major = true ∧ isDigit minor = true ∧
    request.version = [major, 0x2e, minor]

/-- A line is accepted if it is a request line, with the parts of its only split. -/
def Exact (line : Bytes) : Prop :=
  ∀ request, parseRequestLine line = some request ↔ Splits line request ∧ WellFormed request

theorem parseRequestLine_of_splits (h : Splits line request) :
    parseRequestLine line = some request := by
  obtain ⟨method, target, version, headers, body⟩ := request
  obtain ⟨rfl, htoken, htarget, rfl, rfl⟩ := h
  have hmethod : space ∉ method := fun hmem => by
    have hspace := all_eq_true.mp htoken space hmem
    exact absurd hspace (by decide)
  have htake : (ascii "HTTP/" ++ version).take 5 = ascii "HTTP/" := take_left' (by decide)
  have hdrop : (ascii "HTTP/" ++ version).drop 5 = version := drop_left' (by decide)
  unfold parseRequestLine
  rw [span_ne_append hmethod]
  dsimp only
  rw [htoken, span_ne_append htarget]
  dsimp only
  rw [htake, hdrop]
  rfl

/-- **Request lines.** What the parser makes of a line is right unless the line has an empty method,
an empty target, or something else than a version behind `HTTP/`. -/
theorem exact_iff (line : Bytes) :
    Exact line ↔ ∀ request, Splits line request → WellFormed request := by
  constructor
  · intro h request hsplits
    exact ((h request).mp (parseRequestLine_of_splits hsplits)).2
  · intro h request
    constructor
    · intro hparse
      have hsplits := splits_of_parseRequestLine hparse
      exact ⟨hsplits, h request hsplits⟩
    · exact fun hformed => parseRequestLine_of_splits hformed.1

theorem not_exact_emptyMethod : ¬Exact (ascii " / HTTP/1.1") := by
  intro h
  have hsplits : Splits (ascii " / HTTP/1.1") ⟨[], ascii "/", ascii "1.1", [], []⟩ :=
    ⟨by decide, rfl, by decide, rfl, rfl⟩
  exact ((h _).mp (parseRequestLine_of_splits hsplits)).2.method rfl

end Spaznet.Http
