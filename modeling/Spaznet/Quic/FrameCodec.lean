import Spaznet.Quic.Frame

/-!
# Reading back encoded frames

What `parseFrame` returns where an encoding stands in front of it, one lemma for each layout of
the fields, and `parseFrames` on a concatenation of encodings. Two frames of the code have fields
that are not on the wire: `Frame.carried` clears them.
-/

namespace Spaznet.Quic

open List Option VarInt

/-! ## Encodable frames -/

def AckFrame.Fits (f : AckFrame) : Prop :=
  f.largestAcked ≤ kMax ∧ f.ackDelay ≤ kMax ∧ f.firstRange ≤ kMax ∧
    f.ranges.length ≤ kMax ∧
    (∀ r ∈ f.ranges, r.gap ≤ kMax ∧ r.length ≤ kMax) ∧
    f.ect0 ≤ kMax ∧ f.ect1 ≤ kMax ∧ f.ce ≤ kMax

namespace Frame

/-- Every integer of the frame, the lengths of its byte strings included, fits a varint. -/
def Fits : Frame → Prop
  | .padding _ | .ping | .pathChallenge _ | .pathResponse _ | .handshakeDone => True
  | .ack f => f.Fits
  | .resetStream f =>
    f.streamId ≤ kMax ∧ f.appError ≤ kMax ∧ f.finalSize ≤ kMax
  | .crypto f => f.offset ≤ kMax ∧ f.data.length ≤ kMax
  | .newToken token => token.length ≤ kMax
  | .stream f =>
    f.streamId ≤ kMax ∧ f.offset ≤ kMax ∧ f.data.length ≤ kMax
  | .stopSending a b | .maxStreamData a b | .streamDataBlocked a b =>
    a ≤ kMax ∧ b ≤ kMax
  | .maxData a | .maxStreams _ a | .dataBlocked a | .streamsBlocked _ a | .retireConnectionId a =>
    a ≤ kMax
  | .newConnectionId f => f.sequenceNumber ≤ kMax ∧ f.retirePriorTo ≤ kMax
  | .connectionClose f =>
    f.errorCode ≤ kMax ∧ f.frameType ≤ kMax ∧ f.reason.length ≤ kMax

/-- The frame has a form the format can carry: padding is not empty, a STREAM frame has its Length
field, a connection id has 1 to 20 bytes. The reset token and the path data are arrays of 16 and 8
bytes in the code. -/
def Shaped : Frame → Prop
  | .padding count => 1 ≤ count
  | .stream f => f.hasLength = true
  | .newConnectionId f =>
    1 ≤ f.connectionId.length ∧ f.connectionId.length ≤ 20 ∧ f.statelessResetToken.length = 16
  | .pathChallenge data | .pathResponse data => data.length = 8
  | _ => True

/-- The frame without the fields that its flags keep off the wire: the ECN counts of an ACK frame
without ECN, and the frame type of an application close. -/
def carried : Frame → Frame
  | .ack f => .ack (if f.ecn then f else { f with ect0 := 0, ect1 := 0, ce := 0 })
  | .connectionClose f => .connectionClose (if f.application then { f with frameType := 0 } else f)
  | f => f

/-- Adjacent PADDING frames as one. -/
def mergePadding : List Frame → List Frame
  | [] => []
  | .padding m :: rest => match mergePadding rest with
    | .padding n :: rest => .padding (m + n) :: rest
    | rest => .padding m :: rest
  | f :: rest => f :: mergePadding rest

end Frame

/-! ## Concatenated encodings -/

theorem concatAll_cons :
    concatAll (part :: parts) = some e ↔
      ∃ a b, part = some a ∧ concatAll parts = some b ∧ e = a ++ b := by
  constructor
  · intro h
    obtain ⟨a, ha, h⟩ := bind_eq_some_iff.mp h
    obtain ⟨b, hb, h⟩ := bind_eq_some_iff.mp h
    exact ⟨a, b, ha, hb, (Option.some.inj h).symm⟩
  · rintro ⟨a, b, rfl, hb, rfl⟩
    simp only [concatAll, hb, bind_eq_bind, bind_some]

theorem concatAll_nil : concatAll [] = some e ↔ e = [] :=
  ⟨fun h => (Option.some.inj h).symm, fun h => h ▸ rfl⟩

theorem concatAll_append :
    concatAll (xs ++ ys) = some e ↔
      ∃ a b, concatAll xs = some a ∧ concatAll ys = some b ∧ e = a ++ b := by
  induction xs generalizing e with
  | nil => simp [concatAll_nil]
  | cons x xs ih =>
    simp only [cons_append, concatAll_cons, ih]
    constructor
    · rintro ⟨a, _, ha, ⟨b, c, hb, hc, rfl⟩, rfl⟩
      exact ⟨a ++ b, c, ⟨a, b, ha, hb, rfl⟩, hc, (append_assoc ..).symm⟩
    · rintro ⟨_, c, ⟨a, b, ha, hb, rfl⟩, hc, rfl⟩
      exact ⟨a, b ++ c, ha, ⟨b, c, hb, hc, rfl⟩, append_assoc ..⟩

theorem concatAll_isSome :
    (concatAll parts).isSome ↔ ∀ p ∈ parts, p.isSome := by
  induction parts with
  | nil => simp [concatAll]
  | cons p ps ih =>
    simp only [forall_mem_cons, ← ih]
    cases p with
    | none => simp [concatAll]
    | some a => cases hps : concatAll ps <;> simp [concatAll, hps]

theorem encodeFrame_isSome (h : f.Fits) : (encodeFrame f).isSome := by
  cases f with
  | padding | ping | handshakeDone => rfl
  | ack f =>
    obtain ⟨h1, h2, h3, h4, h5, h6⟩ := h
    have hranges : ∀ p ∈ f.ranges.flatMap fun r => [encode r.gap, encode r.length],
        p.isSome := by
      intro p hp
      obtain ⟨r, hr, hp⟩ := mem_flatMap.mp hp
      rcases mem_pair.mp hp with rfl | rfl
      · exact encode_isSome.mpr (h5 r hr).1
      · exact encode_isSome.mpr (h5 r hr).2
    rw [encodeFrame, concatAll_isSome, forall_mem_append, forall_mem_append]
    refine ⟨⟨?_, hranges⟩, ?_⟩
    · cases f.ecn <;> simp_all [encode_isSome, kMax]
    · cases f.ecn <;> simp_all [encode_isSome]
  | stream f =>
    rw [encodeFrame, concatAll_isSome]
    by_cases hoff : f.offset = 0 <;> simp_all [Frame.Fits, encode_isSome]
  | maxStreams bidi | streamsBlocked bidi =>
    rw [encodeFrame, concatAll_isSome]
    cases bidi <;> simp_all [Frame.Fits, encode_isSome, kMax]
  | connectionClose f =>
    rw [encodeFrame, concatAll_isSome]
    cases hf : f.application <;> simp_all [Frame.Fits, encode_isSome, kMax]
  | _ =>
    rw [encodeFrame, concatAll_isSome]
    simp_all [Frame.Fits, encode_isSome, kMax]

/-! ## Reading the parts of an encoding -/

/-- Whatever bytes the parts make, `r` reads `v` off them. -/
def Decodes (r : Bytes → Nat → Option (β × Nat)) (parts : List (Option Bytes)) (v : β) : Prop :=
  ∀ ⦃e⦄, concatAll parts = some e → Reads r e v

namespace Decodes

variable {r r' : Bytes → Nat → Option (β × Nat)} {read : Bytes → Nat → Option (γ × Nat)}
  {k : Bytes → γ × Nat → Option (β × Nat)} {parts front : List (Option Bytes)} {v : β} {x : γ}

theorem pure (hr : r = fun _ off => some (v, off)) : Decodes r [] v := by
  intro e he buf off t _
  cases concatAll_nil.mp he
  exact congrFun₂ hr buf off

/-- The parts in front are read first, and the rest with what they gave. -/
theorem append (hr : r = fun buf off => (read buf off).bind (k buf)) (hx : Decodes read front x)
    (h : Decodes (fun buf off => k buf (x, off)) parts v) : Decodes r (front ++ parts) v := by
  intro _ hboth buf off t hrem
  obtain ⟨e, e', he, he', rfl⟩ := concatAll_append.mp hboth
  rw [append_assoc] at hrem
  have hrest : k buf (x, _) = _ := h he' hrem.advance
  simp only [hr, hx he hrem, bind_some, hrest, length_append, Nat.add_assoc]

theorem congr (hr : ∀ e buf off, concatAll parts = some e → off + e.length ≤ buf.length →
    r buf off = r' buf off) (h : Decodes r' parts v) : Decodes r parts v := by
  intro e he buf off t hrem
  have hlen := hrem.length_eq
  rw [length_append] at hlen
  rw [hr e buf off he (by omega), h he hrem]

theorem of_part (h : ∀ e, part = some e → Reads r e v) :
    Decodes r [part] v := by
  intro _ hone
  obtain ⟨e, _, he, hnil, rfl⟩ := concatAll_cons.mp hone
  cases concatAll_nil.mp hnil
  rw [append_nil]
  exact h e he

end Decodes

section
variable {r : Bytes → Nat → Option (β × Nat)} {parts : List (Option Bytes)} {v : β}

theorem Decodes.varint {k : Bytes → Nat × Nat → Option (β × Nat)}
    (hr : r = fun buf off => (readVarint buf off).bind (k buf))
    (h : Decodes (fun buf off => k buf (n, off)) parts v) : Decodes r (encode n :: parts) v :=
  append hr (of_part fun _ => decode_encode) h

theorem decodes_readBytes (hlen : data.length = n) :
    Decodes (fun buf off => readBytes buf off n) [some data] data := by
  refine Decodes.of_part fun e he buf off t h => ?_
  cases he
  have hbuf := h.length_eq
  rw [length_append] at hbuf
  subst hlen
  simp only [readBytes, h.take_eq]
  rw [if_neg (by omega)]

theorem Decodes.bytes {data : Bytes} {k : Bytes → Bytes × Nat → Option (β × Nat)}
    (hlen : data.length = n) (hr : r = fun buf off => (readBytes buf off n).bind (k buf))
    (h : Decodes (fun buf off => k buf (data, off)) parts v) : Decodes r (some data :: parts) v :=
  append hr (decodes_readBytes hlen) h

end

abbrev rangeParts (ranges : List AckRange) : List (Option Bytes) :=
  ranges.flatMap fun r => [encode r.gap, encode r.length]

theorem length_ranges_le (h : concatAll (rangeParts rs) = some e) :
    2 * rs.length ≤ e.length := by
  induction rs generalizing e with
  | nil => simp
  | cons r rest ih =>
    simp only [flatMap_cons, concatAll_append, concatAll_cons, concatAll_nil] at h
    obtain ⟨_, e', ⟨eg, _, hg, ⟨el, _, hl, rfl, rfl⟩, rfl⟩, hrest, rfl⟩ := h
    have hg := (length_encode hg).1
    have hl := (length_encode hl).1
    have := ih hrest
    simp only [length_append, length_cons]
    omega

theorem decodes_readRanges (ranges : List AckRange) :
    Decodes (fun buf off => readRanges buf ranges.length off) (rangeParts ranges) ranges := by
  induction ranges with
  | nil => exact .pure rfl
  | cons r rest ih =>
    refine .varint rfl (.varint rfl ?_)
    show Decodes _ (rangeParts rest) _
    rw [← append_nil (rangeParts rest)]
    exact .append rfl ih (.pure rfl)

theorem decodes_ack (f : AckFrame) :
    Decodes (fun buf off => parseAck buf off f.ecn)
      (encode f.largestAcked :: encode f.ackDelay :: encode f.ranges.length ::
        encode f.firstRange :: (rangeParts f.ranges ++
      if f.ecn then [encode f.ect0, encode f.ect1, encode f.ce] else []))
      (Frame.ack f).carried := by
  refine .varint rfl (.varint rfl (.varint rfl
    (.varint rfl (.congr (fun e buf off he hlen => if_neg ?_)
      (.append rfl (decodes_readRanges f.ranges) ?_)))))
  · -- the count passes the plausibility check: each pair takes two bytes
    obtain ⟨er, _, hr, -, rfl⟩ := concatAll_append.mp he
    have := length_ranges_le hr
    rw [length_append] at hlen
    omega
  · obtain ⟨a, d, n, ranges, ecn, e0, e1, ce⟩ := f
    cases ecn with
    | false => exact .pure rfl
    | true =>
      exact .varint rfl (.varint rfl (.varint rfl
        (.pure rfl)))

theorem decodes_idAndToken (h : f.statelessResetToken.length = 16) : Decodes (fun buf off => do
      let (connectionId, off) ← readBytes buf off f.connectionId.length
      let (statelessResetToken, off) ← readBytes buf off 16
      some (Frame.newConnectionId { f with connectionId, statelessResetToken }, off))
      [some f.connectionId, some f.statelessResetToken] (.newConnectionId f) :=
  .bytes rfl rfl (.bytes h rfl (.pure rfl))

theorem decodes_newConnectionId (h1 : 1 ≤ f.connectionId.length)
    (h20 : f.connectionId.length ≤ 20) (h16 : f.statelessResetToken.length = 16) :
    Decodes parseNewConnectionId [encode f.sequenceNumber, encode f.retirePriorTo,
      some [UInt8.ofNat f.connectionId.length], some f.connectionId, some f.statelessResetToken]
      (.newConnectionId f) := by
  have hbyte : (UInt8.ofNat f.connectionId.length).toNat = f.connectionId.length := by
    rw [UInt8.toNat_ofNat']
    omega
  refine .varint rfl (.varint rfl fun _ hparts buf off t h => ?_)
  obtain ⟨_, e, hone, he, rfl⟩ := concatAll_cons.mp hparts
  cases hone
  simp only [Remaining.getElem?_eq h, bind_eq_bind, bind_some, hbyte]
  rw [if_neg (by omega)]
  exact (decodes_idAndToken h16 he h.next).trans (by rw [Nat.add_assoc, Nat.add_comm 1]; rfl)

theorem decodes_connectionClose (f : ConnectionCloseFrame) :
    Decodes (fun buf off => parseConnectionClose buf off f.application)
      (encode f.errorCode :: ((if f.application then [] else [encode f.frameType]) ++
        [encode f.reason.length, some f.reason])) (Frame.connectionClose f).carried := by
  obtain ⟨application, code, type, reason⟩ := f
  cases application with
  | true =>
    exact .varint rfl (.varint rfl (.bytes rfl rfl
      (.pure rfl)))
  | false =>
    exact .varint rfl (.varint rfl (.varint rfl
      (.bytes rfl rfl (.pure rfl))))

/-! ## One frame -/

section
variable {f : Frame} {buf b e t : Bytes} {off : Nat}

theorem encode_type (h : ty < 64) : encode ty = some [UInt8.ofNat ty] := by
  rw [encode, encodedSize, if_pos (by omega)]
  rfl

/-- A type byte that is not zero, followed by fields that the parser of that type reads as `f`. -/
def Typed (b : Bytes) (f : Frame) : Prop :=
  ∃ ty e, 0 < ty ∧ ty < 64 ∧ b = UInt8.ofNat ty :: e ∧
    Reads (fun buf off => parseFields buf ty off) e f

theorem typed (ty : Nat) (hb : concatAll (part :: parts) = some b)
    (h : Decodes (fun buf off => parseFields buf ty off) parts f)
    (hpart : part = some [UInt8.ofNat ty] := by decide) (hty : 0 < ty ∧ ty < 64 := by decide) :
    Typed b f := by
  obtain ⟨_, e, ht, he, rfl⟩ := concatAll_cons.mp hb
  cases hpart.symm.trans ht
  exact ⟨ty, e, hty.1, hty.2, rfl, h he⟩

/-- The offset is left out where it is zero, and the type says so. -/
theorem typed_stream {f : StreamFrame} (hlength : f.hasLength = true)
    (hb : encodeFrame (.stream f) = some b) : Typed b (.stream f) := by
  obtain ⟨id, offset, hasLength, fin, data⟩ := f
  cases hlength
  by_cases hz : offset = 0
  · simp only [encodeFrame, ne_eq, hz, not_true_eq_false, if_false] at hb
    subst hz
    cases fin with
    | false =>
      exact typed 0x0A hb (.varint rfl (.varint rfl
        (.bytes rfl rfl (.pure rfl)))) (by simp +decide)
    | true =>
      exact typed 0x0B hb (.varint rfl (.varint rfl
        (.bytes rfl rfl (.pure rfl)))) (by simp +decide)
  · simp only [encodeFrame, ne_eq, hz, not_false_eq_true, if_true] at hb
    cases fin with
    | false =>
      exact typed 0x0E hb (.varint rfl (.varint rfl
        (.varint rfl (.bytes rfl rfl (.pure rfl)))))
        (by simp +decide)
    | true =>
      exact typed 0x0F hb (.varint rfl (.varint rfl
        (.varint rfl (.bytes rfl rfl (.pure rfl)))))
        (by simp +decide)

theorem typed_encodeFrame (hs : f.Shaped) (hpad : ∀ n, f ≠ .padding n)
    (hb : encodeFrame f = some b) : Typed b f.carried := by
  have single {ty n mk} (hb : concatAll [encode ty, encode n] = some b)
      (hp : (parseFields · ty ·) = (parseSingle · · mk))
      (hty : 0 < ty ∧ ty < 64 := by decide) : Typed b (mk n) :=
    typed ty hb (.varint hp (.pure rfl)) (encode_type hty.2) hty
  have pair {ty m n mk} (hb : concatAll [encode ty, encode m, encode n] = some b)
      (hp : (parseFields · ty ·) = (parsePair · · mk))
      (hty : 0 < ty ∧ ty < 64 := by decide) : Typed b (mk m n) :=
    typed ty hb (.varint hp (.varint rfl (.pure rfl)))
      (encode_type hty.2) hty
  cases f with
  | padding n => exact absurd rfl (hpad n)
  | ping =>
    cases hb
    exact ⟨0x01, [], by decide, by decide, rfl, fun _ _ _ _ => rfl⟩
  | handshakeDone =>
    cases hb
    exact ⟨0x1e, [], by decide, by decide, rfl, fun _ _ _ _ => rfl⟩
  | ack f =>
    have hfields := decodes_ack f
    rw [encodeFrame, append_assoc] at hb
    cases hecn : f.ecn with
    | false =>
      rw [hecn] at hb hfields
      exact typed 0x02 hb hfields
    | true =>
      rw [hecn] at hb hfields
      exact typed 0x03 hb hfields
  | resetStream f =>
    exact typed 0x04 hb (.varint rfl (.varint rfl (.varint rfl
      (.pure rfl))))
  | stopSending => exact pair hb rfl
  | crypto f =>
    exact typed 0x06 hb (.varint rfl (.varint rfl
      (.bytes rfl rfl (.pure rfl))))
  | newToken token =>
    exact typed 0x07 hb (.varint rfl (.bytes rfl rfl
      (.pure rfl)))
  | stream f => exact typed_stream hs hb
  | maxStreamData | streamDataBlocked => exact pair hb rfl
  | maxData | dataBlocked | retireConnectionId => exact single hb rfl
  | maxStreams bidi | streamsBlocked bidi => cases bidi <;> exact single hb rfl
  | newConnectionId f => exact typed 0x18 hb (decodes_newConnectionId hs.1 hs.2.1 hs.2.2)
  | pathChallenge => exact typed 0x1a hb (.bytes hs rfl (.pure rfl))
  | pathResponse => exact typed 0x1b hb (.bytes hs rfl (.pure rfl))
  | connectionClose f =>
    have hfields := decodes_connectionClose f
    rw [encodeFrame, append_assoc] at hb
    cases happ : f.application with
    | false =>
      rw [happ] at hb hfields
      exact typed 0x1c hb hfields
    | true =>
      rw [happ] at hb hfields
      exact typed 0x1d hb hfields

theorem Typed.parseFrame_eq (hb : Typed b f) (h : Remaining buf off (b ++ t)) :
    parseFrame buf off = (some f, off + b.length) := by
  obtain ⟨ty, e, -, hlt, rfl, hr⟩ := hb
  have ht : decode buf off = some (ty, off + 1) := decode_encode (encode_type hlt) h
  have hf : parseFields buf ty (off + 1) = some (f, off + 1 + e.length) := hr h.next
  simp only [parseFrame, ht, hf, length_cons, Nat.add_assoc, Nat.add_comm 1]

theorem parseFrame_padding (hn : 1 ≤ n) (ht : t.head? ≠ some 0)
    (h : Remaining buf off (List.replicate n 0 ++ t)) :
    parseFrame buf off = (some (.padding n), off + n) := by
  obtain ⟨m, rfl⟩ : ∃ m, n = m + 1 := ⟨n - 1, by omega⟩
  have hzero : decode buf off = some (0, off + 1) :=
    decode_encode (encode_type (by decide)) h
  have hrun : (buf.drop (off + 1)).takeWhile (· == 0) = List.replicate m 0 := by
    rw [Remaining.drop_eq (t := List.replicate m 0 ++ t) h.next]
    cases t with
    | nil => simp
    | cons x t =>
      have hx : (x == 0) = false := by simpa using ht
      simp [hx]
  simp only [parseFrame, hzero, parseFields, if_true, hrun, length_replicate,
    Prod.mk.injEq, Option.some.injEq, Frame.padding.injEq]
  omega

end

/-! ## Lists of frames -/

/-- No two PADDING frames stand next to each other. -/
def Separated (frames : List Frame) : Prop :=
  frames.IsChain fun f g => ∀ m n, ¬(f = .padding m ∧ g = .padding n)

section
variable {frames : List Frame} {buf b : Bytes} {off : Nat}

theorem encodeFrames_cons :
    encodeFrames (f :: frames) = some b ↔
      ∃ e b', encodeFrame f = some e ∧ encodeFrames frames = some b' ∧ b = e ++ b' :=
  concatAll_cons

theorem encodeFrames_isSome (h : ∀ f ∈ frames, f.Fits) : (encodeFrames frames).isSome := by
  rw [encodeFrames, concatAll_isSome]
  intro p hp
  obtain ⟨f, hf, rfl⟩ := mem_map.mp hp
  exact encodeFrame_isSome (h f hf)

/-- What follows a PADDING frame in a separated list does not start with a zero byte. -/
theorem head?_encodeFrames (hs : ∀ f ∈ frames, f.Shaped) (hsep : Separated (.padding n :: frames))
    (hb : encodeFrames frames = some b) :
    b.head? ≠ some 0 := by
  cases frames with
  | nil => cases concatAll_nil.mp hb; simp
  | cons f rest =>
    obtain ⟨e, b', he, -, rfl⟩ := encodeFrames_cons.mp hb
    have hpad : ∀ m, f ≠ .padding m := by
      rintro m rfl
      exact (isChain_cons_cons.mp hsep).1 n m ⟨rfl, rfl⟩
    obtain ⟨ty, e, hpos, hlt, rfl, -⟩ := typed_encodeFrame (hs f mem_cons_self) hpad he
    intro h
    have hzero := congrArg UInt8.toNat (Option.some.inj h)
    simp at hzero
    omega

theorem parseFramesFrom_encodeFrames (hs : ∀ f ∈ frames, f.Shaped) (hsep : Separated frames)
    (hb : encodeFrames frames = some b) (hfuel : b.length ≤ fuel) (h : Remaining buf off b) :
    parseFramesFrom buf fuel off = some (frames.map Frame.carried) := by
  induction frames generalizing b off fuel with
  | nil =>
    cases concatAll_nil.mp hb
    have := h.length_eq
    rw [length_nil] at this
    unfold parseFramesFrom
    rw [if_neg (by omega)]
    rfl
  | cons f rest ih =>
    obtain ⟨e, b', he, hb', rfl⟩ := encodeFrames_cons.mp hb
    have hrest := forall_mem_of_forall_mem_cons hs
    have hlen := h.length_eq
    rw [length_append] at hfuel hlen
    have hframe : parseFrame buf off = (some f.carried, off + e.length) ∧ 1 ≤ e.length := by
      by_cases hpad : ∃ n, f = .padding n
      · obtain ⟨n, rfl⟩ := hpad
        cases he
        have hn : 1 ≤ n := hs _ mem_cons_self
        rw [length_replicate]
        exact ⟨parseFrame_padding hn (head?_encodeFrames hrest hsep hb') h, hn⟩
      · have htyped := typed_encodeFrame (hs f mem_cons_self) (not_exists.mp hpad) he
        refine ⟨htyped.parseFrame_eq h, ?_⟩
        obtain ⟨_, _, -, -, rfl, -⟩ := htyped
        exact Nat.succ_pos _
    obtain ⟨fuel, rfl⟩ : ∃ k, fuel = k + 1 := ⟨fuel - 1, by omega⟩
    unfold parseFramesFrom
    rw [if_pos (by omega), hframe.1]
    show (parseFramesFrom buf fuel (off + e.length)).map _ = _
    rw [ih hrest hsep.of_cons hb' (by omega) h.advance]
    rfl

end

namespace Frame

/-- **Induction rule.** A frame is put in front of the merged rest, or is PADDING and merged into
the PADDING that stands there. -/
theorem mergePadding_rec {P : List Frame → List Frame → Prop} (hnil : P [] [])
    (hcons : ∀ f rest, (∀ m n tail, f = .padding m → mergePadding rest ≠ .padding n :: tail) →
      P rest (mergePadding rest) → P (f :: rest) (f :: mergePadding rest))
    (hmerge : ∀ m n rest tail, P rest (.padding n :: tail) →
      P (.padding m :: rest) (.padding (m + n) :: tail)) (frames : List Frame) :
    P frames (mergePadding frames) := by
  induction frames with
  | nil => exact hnil
  | cons f rest ih =>
    by_cases hpad : ∃ m, f = .padding m
    · obtain ⟨m, rfl⟩ := hpad
      rw [mergePadding]
      split
      next n tail heq =>
        rw [heq] at ih
        exact hmerge m n rest tail ih
      next hne => exact hcons _ rest (fun _ n tail _ => hne n tail) ih
    · rw [mergePadding]
      · exact hcons f rest (fun m _ _ hf => absurd ⟨m, hf⟩ hpad) ih
      · exact not_exists.mp hpad

theorem forall_mergePadding {P : Frame → Prop} (hadd : ∀ m n, P (.padding m) → P (.padding (m + n))) :
    (∀ f ∈ frames, P f) → ∀ f ∈ mergePadding frames, P f := by
  induction frames using mergePadding_rec with
  | hnil => exact id
  | hcons f rest _ ih =>
    simp only [forall_mem_cons]
    exact And.imp_right ih
  | hmerge m n rest tail ih =>
    simp only [forall_mem_cons] at ih ⊢
    exact fun h => ⟨hadd m n h.1, (ih h.2).2⟩

theorem separated_mergePadding (frames : List Frame) : Separated (mergePadding frames) := by
  induction frames using mergePadding_rec with
  | hnil => exact .nil
  | hcons f rest hne ih =>
    cases hrest : mergePadding rest with
    | nil => exact .singleton _
    | cons g tail =>
      rw [hrest] at ih
      exact isChain_cons_cons.mpr
        ⟨fun m n h => hne m n tail h.1 (by rw [hrest, h.2]), ih⟩
  | hmerge m n rest tail ih =>
    cases tail with
    | nil => exact .singleton _
    | cons g tail =>
      obtain ⟨hg, htail⟩ := isChain_cons_cons.mp ih
      exact isChain_cons_cons.mpr ⟨fun _ k hk => hg n k ⟨rfl, hk.2⟩, htail⟩

theorem encodeFrames_mergePadding (frames : List Frame) :
    encodeFrames (mergePadding frames) = encodeFrames frames := by
  have hcons (f : Frame) (l : List Frame) :
      encodeFrames (f :: l) = (encodeFrame f).bind fun a => (encodeFrames l).bind fun b =>
        some (a ++ b) := rfl
  induction frames using mergePadding_rec with
  | hnil => rfl
  | hcons f rest _ ih => rw [hcons, hcons, ih]
  | hmerge m n rest tail ih =>
    rw [hcons, hcons, ← ih, hcons]
    cases encodeFrames tail <;> simp [encodeFrame, ← replicate_append_replicate]

theorem parseFrames_of_encodeFrames (hs : ∀ f ∈ frames, f.Shaped)
    (hb : encodeFrames frames = some payload) :
    parseFrames payload = some ((mergePadding frames).map carried) := by
  have hshaped := forall_mergePadding
    (fun m n (hm : 1 ≤ m) => (Nat.le_add_right_of_le hm : 1 ≤ m + n)) hs
  rw [← encodeFrames_mergePadding] at hb
  exact parseFramesFrom_encodeFrames hshaped (separated_mergePadding frames) hb le_rfl
    (.start payload)

end Frame

end Spaznet.Quic
