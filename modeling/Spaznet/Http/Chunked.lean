import Spaznet.Http.Text

/-!
# Chunked bodies

`parse_chunked_body` as the code runs it, with its limits, and next to it the coding itself:
`Chunked wire body` says that `wire` is a chunked encoding of `body`. What the parser decodes is an
encoding of what it returns.
-/

namespace Spaznet.Http

open Ascii List Option

inductive ParseResult (α : Type) where
  | success (a : α)
  | incomplete
  | error
  deriving DecidableEq

def kMaxBodySize : Nat := 64 * 1024 * 1024

def kMaxChunkSize : Nat := 16 * 1024 * 1024

def kChunkLineMax : Nat := 4096

/-! ## The parser -/

def hexDigit (c : UInt8) : Option Nat :=
  if 0x30 ≤ c ∧ c ≤ 0x39 then some (c.toNat - 0x30)
  else if 0x61 ≤ c ∧ c ≤ 0x66 then some (10 + (c.toNat - 0x61))
  else if 0x41 ≤ c ∧ c ≤ 0x46 then some (10 + (c.toNat - 0x41))
  else none

/-- The loop of `parse_chunk_size`. -/
def parseHex : (value : Nat) → (sawDigit : Bool) → Bytes → Option Nat
  | value, sawDigit, [] => if sawDigit then some value else none
  | value, sawDigit, c :: rest =>
    if c = semicolon then if sawDigit then some value else none
    else match hexDigit c with
      | none => none
      | some digit =>
        if value > (2 ^ 64 - 1 - digit) / 16 then none else parseHex (value * 16 + digit) true rest

def parseChunkSize (line : Bytes) : Option Nat := parseHex 0 false line

inductive LineResult where
  | line (text rest : Bytes)
  | incomplete
  | tooLong

/-- Search for a CRLF; `scanned` bytes of the line are behind. -/
def takeLine : (scanned : Nat) → Bytes → LineResult
  | scanned, b :: b' :: rest =>
    if b = cr ∧ b' = lf then .line [] rest
    else if scanned > kChunkLineMax then .tooLong
    else match takeLine (scanned + 1) (b' :: rest) with
      | .line text rest => .line (b :: text) rest
      | .incomplete => .incomplete
      | .tooLong => .tooLong
  | _, _ => .incomplete

/-- Skip trailer lines up to the empty one; the position after it. Every round takes two bytes at
least, so that `fuel` is never used up. -/
def skipTrailers : (fuel pos : Nat) → Bytes → ParseResult Nat
  | fuel + 1, pos, b :: b' :: rest =>
    if b = cr ∧ b' = lf then .success (pos + 2)
    else match takeLine 0 (b :: b' :: rest) with
      | .line text rest => skipTrailers fuel (pos + text.length + 2) rest
      | .incomplete => .incomplete
      | .tooLong => .error
  | _, _, _ => .incomplete

/-- The loop of `parse_chunked_body`. -/
def parseChunks : (fuel pos : Nat) → (body : Bytes) → Bytes → ParseResult (Bytes × Nat)
  | 0, _, _, _ => .incomplete
  | fuel + 1, pos, body, buffer =>
    match takeLine 0 buffer with
    | .incomplete => .incomplete
    | .tooLong => .error
    | .line text rest =>
      match parseChunkSize text with
      | none => .error
      | some chunkSize =>
        let pos := pos + text.length + 2
        if chunkSize > kMaxChunkSize then .error
        else if chunkSize = 0 then
          match skipTrailers rest.length pos rest with
          | .success pos => .success (body, pos)
          | .incomplete => .incomplete
          | .error => .error
        else if chunkSize + 2 > rest.length then .incomplete
        else if body.length + chunkSize > kMaxBodySize then .error
        else if (rest.drop chunkSize).take 2 ≠ crlf then .error
        else parseChunks fuel (pos + chunkSize + 2) (body ++ rest.take chunkSize)
          (rest.drop (chunkSize + 2))

def parseChunkedBody (buffer : Bytes) : ParseResult (Bytes × Nat) :=
  parseChunks buffer.length 0 [] buffer

/-! ## The coding -/

/-- No CRLF begins in the line: the one behind it is the first. -/
def IsLine (text : Bytes) : Prop := ¬ crlf <:+: text ++ [cr]

/-- The number before an extension, however large. -/
def chunkSize (line : Bytes) : Option Nat :=
  let digits := line.takeWhile (· ≠ semicolon)
  if digits = [] then none
  else digits.foldlM (fun n c => (hexDigit c).map (n * 16 + ·)) 0

/-- Trailer lines and the empty line after them. -/
inductive Trailers : Bytes → Prop where
  | done : Trailers crlf
  | line : IsLine text → text ≠ [] → Trailers wire → Trailers (text ++ crlf ++ wire)

inductive Chunked : (wire body : Bytes) → Prop where
  | last : IsLine text → chunkSize text = some 0 → Trailers wire → Chunked (text ++ crlf ++ wire) []
  | chunk : IsLine text → chunkSize text = some data.length → data ≠ [] → Chunked wire body →
    Chunked (text ++ crlf ++ data ++ crlf ++ wire) (data ++ body)

def Decodes (buffer body : Bytes) : Prop := ∃ wire rest, buffer = wire ++ rest ∧ Chunked wire body

/-! ## What is parsed is an encoding -/

theorem isLine_nil : IsLine [] := by
  intro h
  have hlen := h.length_le
  exact absurd hlen (by decide)

theorem isLine_cons (hfirst : ¬ (b = cr ∧ (text ++ [cr]).head? = some lf)) (h : IsLine text) :
    IsLine (b :: text) := by
  intro hinfix
  obtain hpre | hinfix := infix_cons_iff.mp hinfix
  · obtain ⟨rfl, tail, htail⟩ := cons_prefix_cons.mp hpre
    exact hfirst ⟨rfl, (congrArg head? htail).symm⟩
  · exact h hinfix

theorem takeLine_spec (h : takeLine scanned buffer = .line text rest) :
    buffer = text ++ crlf ++ rest ∧ IsLine text := by
  induction buffer generalizing scanned text with
  | nil => cases h
  | cons b tail ih =>
    cases tail with
    | nil => cases h
    | cons b' tail =>
      unfold takeLine at h
      split at h
      next hend =>
        cases h
        obtain ⟨rfl, rfl⟩ := hend
        exact ⟨rfl, isLine_nil⟩
      next hmid =>
        split at h
        · cases h
        split at h
        next text' rest' htail =>
          cases h
          obtain ⟨heq, hline⟩ := ih htail
          have hhead : (text' ++ [cr]).head? = some b' := by
            cases text' with
            | nil | cons c text' => exact congrArg head? heq.symm
          refine ⟨by rw [heq]; rfl, isLine_cons ?_ hline⟩
          rw [hhead]
          exact fun hcr => hmid ⟨hcr.1, some.inj hcr.2⟩
        · cases h
        · cases h

theorem length_takeLine (h : takeLine scanned buffer = .line text rest) :
    buffer.length = text.length + 2 + rest.length := by
  obtain ⟨rfl, -⟩ := takeLine_spec h
  rw [length_append, length_append]
  rfl

theorem skipTrailers_fuel (h : buffer.length ≤ fuel) (h' : buffer.length ≤ fuel') (pos : Nat) :
    skipTrailers fuel pos buffer = skipTrailers fuel' pos buffer := by
  induction fuel generalizing fuel' pos buffer with
  | zero =>
    obtain rfl := length_eq_zero_iff.mp (Nat.le_zero.mp h)
    cases fuel' with
    | zero => rfl
    | succ fuel' => rfl
  | succ fuel ih =>
    match buffer, fuel' with
    | [], 0 | [], fuel' + 1 | [_], fuel' + 1 => rfl
    | b :: b' :: rest, fuel' + 1 =>
      unfold skipTrailers
      split
      · rfl
      split
      next text tail hline =>
        have hlen := length_takeLine hline
        exact ih (by omega) (by omega) _
      · rfl
      · rfl

theorem parseChunks_fuel (h : buffer.length ≤ fuel) (h' : buffer.length ≤ fuel') (pos : Nat)
    (body : Bytes) : parseChunks fuel pos body buffer = parseChunks fuel' pos body buffer := by
  induction fuel generalizing fuel' pos body buffer with
  | zero =>
    obtain rfl := length_eq_zero_iff.mp (Nat.le_zero.mp h)
    cases fuel' with
    | zero => rfl
    | succ fuel' => rfl
  | succ fuel ih =>
    cases fuel' with
    | zero =>
      obtain rfl := length_eq_zero_iff.mp (Nat.le_zero.mp h')
      rfl
    | succ fuel' =>
      unfold parseChunks
      split
      · rfl
      · rfl
      next text rest hline =>
        have hlen := length_takeLine hline
        split
        · rfl
        next size hsize =>
          have hdrop : (rest.drop (size + 2)).length ≤ rest.length := by
            rw [length_drop]
            omega
          have hnext (pos : Nat) (body : Bytes) :
              parseChunks fuel pos body (rest.drop (size + 2)) =
                parseChunks fuel' pos body (rest.drop (size + 2)) :=
            ih (by omega) (by omega) pos body
          simp only [hnext]

theorem hexDigit_lt : ∀ b : BitVec 8, ∀ digit ∈ hexDigit ⟨b⟩, digit < 16 := by decide +kernel

theorem le_of_foldlM {digits : Bytes} (h : digits.foldlM
    (fun n c => (hexDigit c).map (n * 16 + ·)) value = some n) : value ≤ n := by
  induction digits generalizing value with
  | nil => exact (some.inj h).le
  | cons c rest ih =>
    obtain ⟨value', hvalue, h⟩ := bind_eq_some_iff.mp h
    obtain ⟨digit, -, rfl⟩ := map_eq_some_iff.mp hvalue
    have hle := ih h
    omega

/-- The loop gives up at the first digit that leads beyond the bound. -/
theorem parseHex_eq_some_iff {line : Bytes} (hvalue : value < 2 ^ 64) :
    parseHex value sawDigit line = some n ↔
      (sawDigit = true ∨ line.takeWhile (· ≠ semicolon) ≠ []) ∧ n < 2 ^ 64 ∧
        (line.takeWhile (· ≠ semicolon)).foldlM (fun n c => (hexDigit c).map (n * 16 + ·)) value =
          some n := by
  have hstop {value : Nat} {sawDigit : Bool} (hvalue : value < 2 ^ 64) :
      (if sawDigit then some value else none) = some n ↔
        (sawDigit = true ∨ ([] : Bytes) ≠ []) ∧ n < 2 ^ 64 ∧ some value = some n := by
    cases sawDigit with
    | false => simp
    | true =>
      simp only [if_true, true_or, true_and, some.injEq]
      exact ⟨fun h => ⟨h ▸ hvalue, h⟩, And.right⟩
  induction line generalizing value sawDigit with
  | nil => exact hstop hvalue
  | cons c rest ih =>
    unfold parseHex
    split
    next hsemi =>
      rw [takeWhile_cons_of_neg (by simp [hsemi])]
      exact hstop hvalue
    next hsemi =>
      rw [takeWhile_cons_of_pos (by simp [hsemi]), foldlM_cons]
      cases hdigit : hexDigit c with
      | none => simp
      | some digit =>
        have hlt : digit < 16 := hexDigit_lt c.toBitVec digit hdigit
        dsimp only [map_some, bind_eq_bind, bind_some]
        split
        next hbig =>
          refine iff_of_false nofun fun ⟨_, hn, h⟩ => ?_
          have hle := le_of_foldlM h
          omega
        next hfit =>
          have hrest := @ih (value * 16 + digit) true (by omega)
          simpa using hrest

theorem parseChunkSize_eq_some_iff :
    parseChunkSize line = some n ↔ chunkSize line = some n ∧ n < 2 ^ 64 := by
  unfold parseChunkSize chunkSize
  rw [parseHex_eq_some_iff (by decide)]
  dsimp only
  split
  next hnil => exact iff_of_false (fun h => h.1.elim nofun fun hne => hne hnil) nofun
  next hne => exact ⟨fun h => h.2.symm, fun h => ⟨.inr hne, h.symm⟩⟩

theorem skipTrailers_spec (h : skipTrailers fuel pos buffer = .success stop) :
    ∃ wire rest, buffer = wire ++ rest ∧ Trailers wire := by
  induction fuel generalizing pos buffer with
  | zero => cases h
  | succ fuel ih =>
    unfold skipTrailers at h
    split at h
    next fuel' b b' rest hfuel =>
      cases hfuel
      split at h
      next hend =>
        obtain ⟨rfl, rfl⟩ := hend
        exact ⟨crlf, rest, rfl, .done⟩
      next hmid =>
        split at h
        next text tail hline =>
          obtain ⟨heq, hisLine⟩ := takeLine_spec hline
          obtain ⟨wire, after, rfl, htrailers⟩ := ih h
          have htext : text ≠ [] := by
            rintro rfl
            cases heq
            exact hmid ⟨rfl, rfl⟩
          refine ⟨text ++ crlf ++ wire, after, ?_, .line hisLine htext htrailers⟩
          rw [heq, append_assoc _ wire]
        · cases h
        · cases h
    · cases h

/-- A round of the loop that comes to a body: the last chunk with its trailers, or one before it. -/
theorem parseChunks_success (h : parseChunks (fuel + 1) pos body buffer = .success (body', stop)) :
    ∃ text rest size, takeLine 0 buffer = .line text rest ∧ parseChunkSize text = some size ∧
      (size = 0 ∧ body' = body ∧
          skipTrailers rest.length (pos + text.length + 2) rest = .success stop ∨
        size ≠ 0 ∧ size + 2 ≤ rest.length ∧ (rest.drop size).take 2 = crlf ∧
          parseChunks fuel (pos + text.length + 2 + size + 2) (body ++ rest.take size)
            (rest.drop (size + 2)) = .success (body', stop)) := by
  unfold parseChunks at h
  split at h
  · cases h
  · cases h
  next text rest hline =>
  split at h
  · cases h
  next size hsize =>
  dsimp only at h
  refine ⟨text, rest, size, hline, hsize, ?_⟩
  split at h
  · cases h
  split at h
  next hzero =>
    split at h
    next hskip =>
      cases h
      exact .inl ⟨hzero, rfl, hskip⟩
    · cases h
    · cases h
  next hpos =>
    split at h
    · cases h
    next hroom =>
    split at h
    · cases h
    split at h
    · cases h
    next hcrlf => exact .inr ⟨hpos, by omega, not_not.mp hcrlf, h⟩

theorem parseChunks_spec (h : parseChunks fuel pos body buffer = .success (body', stop)) :
    ∃ tail, body' = body ++ tail ∧ Decodes buffer tail := by
  induction fuel generalizing pos body buffer with
  | zero => cases h
  | succ fuel ih =>
    obtain ⟨text, rest, size, hline, hsize, hcase⟩ := parseChunks_success h
    obtain ⟨rfl, hisLine⟩ := takeLine_spec hline
    have hsize := (parseChunkSize_eq_some_iff.mp hsize).1
    obtain ⟨rfl, rfl, hskip⟩ | ⟨hpos, hroom, hcrlf, hrest⟩ := hcase
    · obtain ⟨wire, after, rfl, htrailers⟩ := skipTrailers_spec hskip
      refine ⟨[], (append_nil _).symm, text ++ crlf ++ wire, after, ?_,
        .last hisLine hsize htrailers⟩
      rw [append_assoc _ wire]
    obtain ⟨tail, rfl, wire, after, hwire, hchunked⟩ := ih hrest
    have hlen : (rest.take size).length = size := by
      rw [length_take]
      omega
    have hdata : rest.take size ≠ [] := fun hnil => hpos (by rw [← hlen, hnil]; rfl)
    have hrest : rest = rest.take size ++ crlf ++ (wire ++ after) := by
      rw [← hwire, ← hcrlf, append_assoc, ← drop_drop, take_append_drop,
        take_append_drop]
    rw [← hlen] at hsize
    refine ⟨rest.take size ++ tail, append_assoc _ _ _, _, after, ?_,
      .chunk hisLine hsize hdata hchunked⟩
    nth_rewrite 1 [hrest]
    simp only [append_assoc]

end Spaznet.Http
