import Mathlib.Data.Nat.Digits.Defs
import Spaznet.Http.Written

/-!
# Chunked encodings are decoded

Whatever is written as chunks, with any spelling of the sizes, extensions and trailer lines that
keep to the limits of the parser, is decoded to its body and used up exactly; on less of it the
parser waits.
-/

namespace Spaznet.Http

open Ascii List

/-! ## Lines -/

structure ShortLine (text : Bytes) : Prop where
  isLine : IsLine text
  length_le : text.length ≤ kChunkLineMax

/-! ## Encodings -/

/-- What a chunked body is written from: the size lines with the data, the line of the last chunk
and the trailer lines. -/
structure Coding where
  chunks : List (Bytes × Bytes)
  last : Bytes
  trailers : List Bytes

namespace Coding

def trailerText (trailers : List Bytes) : Bytes := trailers.flatMap (· ++ crlf) ++ crlf

def wire (coding : Coding) : Bytes :=
  coding.chunks.flatMap (fun c => c.1 ++ crlf ++ (c.2 ++ crlf)) ++
    (coding.last ++ crlf ++ trailerText coding.trailers)

def body (coding : Coding) : Bytes := coding.chunks.flatMap Prod.snd

/-- The lines spell the sizes, and lines and chunks keep to their limits. -/
structure Fits (coding : Coding) : Prop where
  lines : ∀ c ∈ coding.chunks, ShortLine c.1 ∧ chunkSize c.1 = some c.2.length
  chunks : ∀ c ∈ coding.chunks, c.2 ≠ [] ∧ c.2.length ≤ kMaxChunkSize
  last : ShortLine coding.last ∧ chunkSize coding.last = some 0
  trailers : ∀ text ∈ coding.trailers, ShortLine text ∧ text ≠ []

end Coding

/-! ## Decoding -/

theorem ShortLine.takeLine_eq (h : ShortLine text) (rest : Bytes) :
    takeLine 0 (text ++ crlf ++ rest) = .line text rest :=
  takeLine_append_crlf h.isLine (by have := h.length_le; omega) rest

theorem skipTrailers_line (h : ShortLine text) (hne : text ≠ []) (fuel pos : Nat) (rest : Bytes) :
    skipTrailers (fuel + 1) pos (text ++ crlf ++ rest) =
      skipTrailers fuel (pos + text.length + 2) rest := by
  have hline := h.takeLine_eq rest
  obtain ⟨b, text, rfl⟩ := exists_cons_of_ne_nil hne
  obtain ⟨b', tail, hnext⟩ := exists_cons_append_crlf text rest
  rw [cons_append, cons_append, hnext] at hline ⊢
  have hmid : ¬(b = cr ∧ b' = lf) := by
    intro hend
    rw [takeLine, if_pos hend] at hline
    cases hline
  rw [skipTrailers, if_neg hmid, hline]

theorem skipTrailers_trailerText (h : ∀ text ∈ trailers, ShortLine text ∧ text ≠ [])
    (hfuel : (Coding.trailerText trailers).length ≤ fuel) (pos : Nat) :
    skipTrailers fuel pos (Coding.trailerText trailers) =
      .success (pos + (Coding.trailerText trailers).length) := by
  induction trailers generalizing fuel pos with
  | nil =>
    match fuel with
    | fuel + 2 => rfl
  | cons text trailers ih =>
    obtain ⟨⟨hline, hne⟩, htrailers⟩ := forall_mem_cons.1 h
    have htext : Coding.trailerText (text :: trailers) =
        text ++ crlf ++ Coding.trailerText trailers := by
      unfold Coding.trailerText
      rw [flatMap_cons, append_assoc]
    have hlen : (Coding.trailerText (text :: trailers)).length =
        text.length + 2 + (Coding.trailerText trailers).length := by
      rw [htext, length_append, length_append]
      rfl
    match fuel with
    | 0 => omega
    | fuel + 1 =>
      rw [hlen, htext, skipTrailers_line hline hne, ih htrailers (by omega)]
      congr 1
      omega

theorem parseChunks_chunk (hline : ShortLine text) (hsize : chunkSize text = some data.length)
    (hdata : data ≠ []) (hlen : data.length ≤ kMaxChunkSize)
    (hbody : (body ++ data).length ≤ kMaxBodySize) (fuel pos : Nat) (rest : Bytes) :
    parseChunks (fuel + 1) pos body (text ++ crlf ++ (data ++ crlf ++ rest)) =
      parseChunks fuel (pos + text.length + 2 + data.length + 2) (body ++ data) rest := by
  have hparse : parseChunkSize text = some data.length :=
    parseChunkSize_eq_some_iff.mpr ⟨hsize, hlen.trans_lt (by decide)⟩
  have hpos : data.length ≠ 0 := (length_pos_iff.mpr hdata).ne'
  have hterm : ((data ++ (crlf ++ rest)).drop data.length).take 2 = crlf := by
    rw [drop_left]
    rfl
  have hrest : (data ++ (crlf ++ rest)).drop (data.length + 2) = rest := by
    rw [← drop_drop, drop_left]
    rfl
  have hroom : ¬data.length + 2 > (data ++ (crlf ++ rest)).length := by
    simp [crlf]
  rw [length_append] at hbody
  rw [parseChunks, hline.takeLine_eq, append_assoc]
  dsimp only
  rw [hparse]
  dsimp only
  rw [if_neg (Nat.not_lt.2 hlen), if_neg hpos, if_neg hroom, if_neg (Nat.not_lt.2 hbody),
    if_neg (not_not.mpr hterm), take_left, hrest]

namespace Coding

variable {last : Bytes} {trailers : List Bytes} {coding : Coding}

theorem wire_cons (c : Bytes × Bytes) (chunks : List (Bytes × Bytes)) :
    wire ⟨c :: chunks, last, trailers⟩ =
      c.1 ++ crlf ++ (c.2 ++ crlf ++ wire ⟨chunks, last, trailers⟩) := by
  unfold wire
  simp only [flatMap_cons, append_assoc]

theorem Fits.parseChunks_eq {chunks : List (Bytes × Bytes)} (h : Fits ⟨chunks, last, trailers⟩)
    (body' : Bytes) (hbody : (body' ++ chunks.flatMap Prod.snd).length ≤ kMaxBodySize)
    (hfuel : (wire ⟨chunks, last, trailers⟩).length ≤ fuel) (pos : Nat) :
    parseChunks fuel pos body' (wire ⟨chunks, last, trailers⟩) =
      .success (body' ++ chunks.flatMap Prod.snd,
        pos + (wire ⟨chunks, last, trailers⟩).length) := by
  induction chunks generalizing fuel pos body' with
  | nil =>
    have hwire : wire ⟨[], last, trailers⟩ = last ++ crlf ++ trailerText trailers := rfl
    have hlen : (wire ⟨[], last, trailers⟩).length =
        last.length + 2 + (trailerText trailers).length := by
      rw [hwire, length_append, length_append]
      rfl
    cases fuel with
    | zero => omega
    | succ fuel =>
      rw [hlen, hwire, parseChunks, h.last.1.takeLine_eq]
      dsimp only
      rw [parseChunkSize_eq_some_iff.mpr ⟨h.last.2, by decide⟩]
      dsimp only
      rw [if_neg (by decide), if_pos rfl, skipTrailers_trailerText h.trailers le_rfl, flatMap_nil,
        append_nil]
      dsimp only
      rw [Nat.add_assoc, Nat.add_assoc, Nat.add_assoc]
  | cons c chunks ih =>
    obtain ⟨⟨hline, hsize⟩, hlines⟩ := forall_mem_cons.1 h.lines
    obtain ⟨⟨hdata, hmax⟩, hchunks⟩ := forall_mem_cons.1 h.chunks
    have hlen : (wire ⟨c :: chunks, last, trailers⟩).length =
        c.1.length + 2 + c.2.length + 2 + (wire ⟨chunks, last, trailers⟩).length := by
      rw [wire_cons]
      simp only [length_append, crlf, length_cons, length_nil]
      omega
    rw [flatMap_cons, ← append_assoc] at hbody ⊢
    have hfirst : (body' ++ c.2).length ≤ kMaxBodySize := by
      rw [length_append] at hbody
      omega
    cases fuel with
    | zero => omega
    | succ fuel =>
      rw [hlen, wire_cons, parseChunks_chunk hline hsize hdata hmax hfirst,
        ih ⟨hlines, hchunks, h.last, h.trailers⟩ _ hbody (by omega)]
      congr 2
      omega

theorem Fits.parseChunkedBody_eq (h : coding.Fits) (hbody : coding.body.length ≤ kMaxBodySize)
    (more : Bytes) :
    parseChunkedBody (coding.wire ++ more) = .success (coding.body, coding.wire.length) := by
  have hwhole : parseChunkedBody coding.wire = .success (coding.body, coding.wire.length) := by
    have hparse := h.parseChunks_eq [] hbody le_rfl 0
    rwa [Nat.zero_add] at hparse
  exact ((parseChunkedBody_grows _ more).eq (by rw [hwhole]; nofun)).trans hwhole

/-- On less than the whole encoding the parser waits: what it said of it would stand. -/
theorem Fits.incomplete (h : coding.Fits) (hbody : coding.body.length ≤ kMaxBodySize)
    (hpre : pre <+: coding.wire) (hne : pre ≠ coding.wire) : parseChunkedBody pre = .incomplete := by
  obtain ⟨more, hmore⟩ := hpre
  by_contra hinc
  have hwhole := h.parseChunkedBody_eq hbody []
  rw [append_nil, ← hmore] at hwhole
  have hsuccess := ((parseChunkedBody_grows pre more).eq hinc).symm.trans hwhole
  have hle := (parseChunks_bounds hsuccess).2
  rw [length_append] at hle
  have hmore' : more = [] := length_eq_zero_iff.1 (by omega)
  rw [hmore', append_nil] at hmore
  exact hne hmore

end Coding

/-! ## What a response is written as -/

namespace HTTPResponse

variable (response : HTTPResponse)

/-- The body as one chunk, unless there is none. -/
def coding : Coding :=
  { chunks := if response.body = [] then [] else [(numeral 16 response.body.length, response.body)]
    last := ascii "0"
    trailers := [] }

theorem wire_coding : response.coding.wire = response.chunkedBody := by
  unfold coding chunkedBody Coding.wire
  dsimp only
  split
  · rfl
  · simp only [flatMap_singleton, append_assoc]
    rfl

theorem body_coding : response.coding.body = response.body := by
  unfold coding Coding.body
  dsimp only
  split
  next hnil => exact hnil.symm
  · rw [flatMap_singleton]

theorem shortLine_numeral (hn : n < 2 ^ 64) : ShortLine (numeral 16 n) := by
  have halnum := isAlnum_numeral n
  rw [all_eq_true] at halnum
  have hshort : (numeral 16 n).length ≤ 16 := by
    unfold numeral
    rw [length_map]
    exact Nat.toDigits_length 16 n 16 (by decide) (by omega)
  exact ⟨isLine_of_not_mem fun hmem => absurd (halnum lf hmem) (by decide), hshort.trans (by decide)⟩

theorem fits_coding (h : response.body.length ≤ kMaxChunkSize) : response.coding.Fits := by
  have hsmall : response.body.length < 2 ^ 64 := h.trans_lt (by decide)
  have hline := shortLine_numeral hsmall
  have hsize := (parseChunkSize_eq_some_iff.mp (parseChunkSize_numeral hsmall)).1
  have hlast : ShortLine (ascii "0") := ⟨isLine_of_not_mem (by decide), by decide⟩
  unfold coding
  split
  · exact ⟨nofun, nofun, ⟨hlast, rfl⟩, nofun⟩
  next hne =>
    exact ⟨forall_mem_singleton.2 ⟨hline, hsize⟩, forall_mem_singleton.2 ⟨hne, h⟩,
      ⟨hlast, rfl⟩, nofun⟩

theorem parseChunkedBody_chunkedBody (h : response.body.length ≤ kMaxChunkSize) (more : Bytes) :
    parseChunkedBody (response.chunkedBody ++ more) =
      .success (response.body, response.chunkedBody.length) := by
  have hparse := (response.fits_coding h).parseChunkedBody_eq
    (by rw [body_coding]; exact h.trans (by decide)) more
  rwa [wire_coding, body_coding] at hparse

end HTTPResponse

/-- What keeps to the limits is decoded and used up exactly, less of it is incomplete, and the body
that `serialize_chunked` writes behind the header block comes back. -/
theorem chunked_codec {coding : Coding} {response : HTTPResponse} (h : coding.Fits)
    (hbody : coding.body.length ≤ kMaxBodySize) (hresponse : response.body.length ≤ kMaxChunkSize)
    (more : Bytes) :
    parseChunkedBody (coding.wire ++ more) = .success (coding.body, coding.wire.length) ∧
      (∀ pre, pre <+: coding.wire → pre ≠ coding.wire → parseChunkedBody pre = .incomplete) ∧
      response.serializeChunked = response.head response.chunkedFields ++ response.chunkedBody ∧
      parseChunkedBody (response.chunkedBody ++ more) =
        .success (response.body, response.chunkedBody.length) :=
  ⟨h.parseChunkedBody_eq hbody more, fun _ => h.incomplete hbody, rfl,
    response.parseChunkedBody_chunkedBody hresponse more⟩

theorem chunked_codec_abc :
    parseChunkedBody (ascii "03;x\r\nabc\r\n0\r\nt: u\r\n\r\n" ++ ascii "GET") =
      .success (ascii "abc", 22) := by
  have hline {text : Bytes} (h : lf ∉ text ∧ text.length ≤ kChunkLineMax) : ShortLine text :=
    ⟨isLine_of_not_mem h.1, h.2⟩
  exact (@chunked_codec ⟨[(ascii "03;x", ascii "abc")], ascii "0", [ascii "t: u"]⟩ {}
    ⟨forall_mem_singleton.2 ⟨hline (by decide), rfl⟩, forall_mem_singleton.2 (by decide),
      ⟨hline (by decide), rfl⟩, forall_mem_singleton.2 ⟨hline (by decide), by decide⟩⟩
    (by decide) (by decide) (ascii "GET")).1

end Spaznet.Http
