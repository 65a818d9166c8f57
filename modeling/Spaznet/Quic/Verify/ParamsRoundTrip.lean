import Spaznet.Quic.TransportParams

/-!
# Transport parameters are a round trip

An encoded block is a list of entries with distinct identifiers, and the decoder stores entry after
entry. So it is enough to follow the record through the entries: each piece of the encoding sets its
own field from the default, and nothing else.
-/

namespace Spaznet.Quic

open List VarInt TransportParamId

/-! ## Blocks as lists of entries -/

def encodeEntries (entries : List (Nat × Bytes)) : Option Bytes :=
  concatAll (entries.map fun e => appendParam e.1 e.2)

def setAll (tp : TransportParameters) : List (Nat × Bytes) → Option TransportParameters
  | [] => some tp
  | e :: entries => match setParam tp e.1 e.2 with
    | (true, tp) => setAll tp entries
    | (false, _) => none

section
variable {t t' t'' : TransportParameters} {entries : List (Nat × Bytes)} {wire b : Bytes}

theorem setAll_append (h : setAll t entries = some t') :
    setAll t (entries ++ entries') = setAll t' entries' := by
  induction entries generalizing t with
  | nil => cases h; rfl
  | cons e rest ih =>
    rw [cons_append, setAll]
    rw [setAll] at h
    split at h
    · exact ih h
    · cases h

theorem appendParam_eq_some {id : Nat} :
    appendParam id value = some b ↔
      ∃ ei en, encode id = some ei ∧ encode value.length = some en ∧
        b = ei ++ (en ++ value) := by
  simp only [appendParam, concatAll_cons, concatAll_nil, Option.some.injEq]
  constructor
  · rintro ⟨ei, _, hi, ⟨en, _, hn, ⟨_, _, rfl, rfl, rfl⟩, rfl⟩, rfl⟩
    exact ⟨ei, en, hi, hn, by rw [append_nil]⟩
  · rintro ⟨ei, en, hi, hn, rfl⟩
    exact ⟨ei, _, hi, ⟨en, _, hn, ⟨value, [], rfl, rfl, rfl⟩, rfl⟩, by rw [append_nil]⟩

/-- The decoder goes through the entries in order, provided their identifiers are new. -/
theorem decodeParamsFrom_entries (hset : setAll t entries = some t')
    (hb : encodeEntries entries = some b) (hnodup : (entries.map Prod.fst).Nodup)
    (hseen : ∀ e ∈ entries, e.1 ∉ seen) (hfuel : b.length ≤ fuel) (h : Remaining wire off b) :
    decodeParamsFrom wire fuel off seen t = (true, t') := by
  induction entries generalizing t b seen fuel off with
  | nil =>
    cases concatAll_nil.mp hb
    cases hset
    have := h.length_eq
    rw [length_nil] at this
    unfold decodeParamsFrom
    rw [if_neg (by omega)]
  | cons e rest ih =>
    obtain ⟨_, b', hentry, hb', rfl⟩ := concatAll_cons.mp hb
    obtain ⟨ei, en, hi, hn, rfl⟩ := appendParam_eq_some.mp hentry
    obtain ⟨hid, hnodup⟩ := nodup_cons.mp hnodup
    obtain ⟨hnew, hseen⟩ := forall_mem_cons.mp hseen
    have hlen := h.length_eq
    have hpos := (length_encode hi).1
    simp only [append_assoc, length_append] at h hlen hfuel
    have h3 := h.advance.advance
    obtain ⟨fuel, rfl⟩ : ∃ k, fuel = k + 1 := ⟨fuel - 1, by omega⟩
    unfold decodeParamsFrom
    rw [if_pos (by omega), decode_encode hi h]
    dsimp only
    rw [decode_encode hn h.advance]
    dsimp only
    rw [if_neg (by omega), if_neg hnew, h3.take_eq]
    rw [setAll] at hset
    split at hset
    · rename_i t₁ heq
      rw [heq]
      refine ih hset hb' hnodup ?_ (by omega) h3.advance
      intro e he hmem
      rcases mem_cons.mp hmem with heq | hmem
      · exact hid (mem_map.mpr ⟨e, he, heq⟩)
      · exact hseen e he hmem
    · cases hset

/-! ## The pieces of an encoding -/

/-- The encoding `part` is made of entries with some of the identifiers `ids`, which turn the record
`t` into `t'`. -/
def Codes (t : TransportParameters) (part : Option Bytes) (ids : List Nat)
    (t' : TransportParameters) : Prop :=
  ∃ entries, part = encodeEntries entries ∧ (entries.map Prod.fst).Sublist ids ∧
    setAll t entries = some t'

theorem Codes.cons (h : Codes t part ids t') (h' : Codes t' (concatAll parts) ids' t'') :
    Codes t (concatAll (part :: parts)) (ids ++ ids') t'' := by
  obtain ⟨entries, rfl, hids, hset⟩ := h
  obtain ⟨entries', heq, hids', hset'⟩ := h'
  refine ⟨entries ++ entries', ?_, ?_, (setAll_append hset).trans hset'⟩
  · refine Option.ext fun b => ?_
    rw [concatAll_cons, heq, encodeEntries, encodeEntries, encodeEntries, map_append,
      concatAll_append]
  · rw [map_append]
    exact hids.append hids'

theorem codes_absent (t : TransportParameters) (ids : List Nat) : Codes t (some []) ids t :=
  ⟨[], rfl, nil_sublist ids, rfl⟩

theorem codes_param {id : Nat} (h : setParam t id value = (true, t')) :
    Codes t (appendParam id value) [id] t' := by
  refine ⟨[(id, value)], ?_, List.Sublist.refl _, ?_⟩
  · refine Option.ext fun b => ?_
    simp [encodeEntries, concatAll_cons, concatAll_nil]
  · rw [setAll, h]
    rfl

variable {id : TransportParamId}

theorem codes_optional {value : Option Bytes}
    (set : TransportParameters → Option Bytes → TransportParameters) (hnone : set t none = t)
    (hsome : ∀ v, value = some v → setParam t id.code v = (true, set t (some v))) :
    Codes t (encodeOptional id value) [id.code] (set t value) := by
  cases value with
  | none =>
    rw [hnone]
    exact codes_absent t _
  | some v => exact codes_param (hsome v rfl)

theorem codes_cid (set : TransportParameters → Option Bytes → TransportParameters)
    (hnone : set t none = t) (hset : ∀ v, setParam t id.code v = setCid t v fun v => set t (some v))
    (hlen : ∀ v, value = some v → v.length ≤ kMaxCidLen) :
    Codes t (encodeOptional id value) [id.code] (set t value) :=
  codes_optional set hnone fun v hv => (hset v).trans (if_neg (Nat.not_lt.mpr (hlen v hv)))

theorem readVarintValue_encode (h : encode n = some v) (out : Nat) :
    readVarintValue v out = (true, n) := by
  have hread : decode v 0 = some (n, 0 + v.length) :=
    decode_encode h (t := []) (by rw [append_nil]; exact .start v)
  simp only [readVarintValue, hread, Nat.zero_add, beq_self_eq_true]

theorem codes_numeric {value default : Nat}
    (set : TransportParameters → Nat → TransportParameters) (hdefault : set t default = t)
    (hset : ∀ v, setParam t id.code v = setVarint v default (set t)) (hfit : value ≤ kMax) :
    Codes t (encodeNumeric id value default) [id.code] (set t value) := by
  by_cases heq : value = default
  · rw [encodeNumeric, if_neg (not_not.mpr heq), heq, hdefault]
    exact codes_absent t _
  obtain ⟨v, hv⟩ := encode_of_le hfit
  rw [encodeNumeric, if_pos heq, appendVarintParam, hv]
  refine codes_param ?_
  rw [hset, setVarint, readVarintValue_encode hv]

theorem codes_flag (set : TransportParameters → Bool → TransportParameters)
    (hfalse : set t false = t) (htrue : setParam t id.code [] = (true, set t true)) (b : Bool) :
    Codes t (if b then appendEmptyParam id.code else some []) [id.code] (set t b) := by
  cases b with
  | false =>
    rw [hfalse]
    exact codes_absent t _
  | true => exact codes_param htrue

theorem codes_unknown (hnew : ∀ u ∈ unknown, ofCode u.id = none) :
    Codes t (concatAll (unknown.map fun u => appendParam u.id u.value)) (unknown.map (·.id))
      { t with unknown := t.unknown ++ unknown } := by
  induction unknown generalizing t with
  | nil =>
    rw [append_nil]
    exact codes_absent t _
  | cons u rest ih =>
    obtain ⟨hu, hrest⟩ := forall_mem_cons.mp hnew
    have hset : setParam t u.id u.value = (true, { t with unknown := t.unknown ++ [u] }) := by
      rw [setParam, hu]
    have := (codes_param hset).cons (ih hrest)
    rw [append_assoc] at this
    exact this

end

/-! ## The whole record -/

namespace TransportParameters

/-- The values the format can carry: connection ids of at most 20 bytes, a reset token of 16 bytes,
integers, the lengths of raw values included, that fit a varint. -/
structure Fits (tp : TransportParameters) : Prop where
  originalDestinationConnectionId : ∀ v, tp.originalDestinationConnectionId = some v →
    v.length ≤ kMaxCidLen
  initialSourceConnectionId : ∀ v, tp.initialSourceConnectionId = some v → v.length ≤ kMaxCidLen
  retrySourceConnectionId : ∀ v, tp.retrySourceConnectionId = some v → v.length ≤ kMaxCidLen
  statelessResetToken : ∀ v, tp.statelessResetToken = some v → v.length = 16
  maxIdleTimeoutMs : tp.maxIdleTimeoutMs ≤ kMax
  maxUdpPayloadSize : tp.maxUdpPayloadSize ≤ kMax
  initialMaxData : tp.initialMaxData ≤ kMax
  initialMaxStreamDataBidiLocal : tp.initialMaxStreamDataBidiLocal ≤ kMax
  initialMaxStreamDataBidiRemote : tp.initialMaxStreamDataBidiRemote ≤ kMax
  initialMaxStreamDataUni : tp.initialMaxStreamDataUni ≤ kMax
  initialMaxStreamsBidi : tp.initialMaxStreamsBidi ≤ kMax
  initialMaxStreamsUni : tp.initialMaxStreamsUni ≤ kMax
  ackDelayExponent : tp.ackDelayExponent ≤ kMax
  maxAckDelayMs : tp.maxAckDelayMs ≤ kMax
  activeConnectionIdLimit : tp.activeConnectionIdLimit ≤ kMax
  unknown : ∀ u ∈ tp.unknown, u.id ≤ kMax ∧ u.value.length ≤ kMax

end TransportParameters

/-- The identifiers in the order of the encoder. -/
def knownIds : List TransportParamId :=
  [.originalDestinationConnectionId, .initialSourceConnectionId, .retrySourceConnectionId,
    .statelessResetToken, .maxIdleTimeout, .maxUdpPayloadSize, .initialMaxData,
    .initialMaxStreamDataBidiLocal, .initialMaxStreamDataBidiRemote, .initialMaxStreamDataUni,
    .initialMaxStreamsBidi, .initialMaxStreamsUni, .ackDelayExponent, .maxAckDelay,
    .activeConnectionIdLimit, .disableActiveMigration]

/-- Following the record through the pieces: each sets its field, which was at its default. -/
theorem codes_encodeTransportParams {tp : TransportParameters} (h : tp.Fits)
    (hnew : ∀ u ∈ tp.unknown, ofCode u.id = none) :
    Codes {} (encodeTransportParams tp) (knownIds.map (·.code) ++ tp.unknown.map (·.id)) tp := by
  refine (codes_cid (fun t v => { t with originalDestinationConnectionId := v }) rfl (fun _ => rfl)
    h.originalDestinationConnectionId).cons ?_
  refine (codes_cid (fun t v => { t with initialSourceConnectionId := v }) rfl (fun _ => rfl)
    h.initialSourceConnectionId).cons ?_
  refine (codes_cid (fun t v => { t with retrySourceConnectionId := v }) rfl (fun _ => rfl)
    h.retrySourceConnectionId).cons ?_
  refine (codes_optional (fun t v => { t with statelessResetToken := v }) rfl ?_).cons ?_
  · exact fun v hv => if_neg (not_not.mpr (h.statelessResetToken v hv))
  refine (codes_numeric (fun t n => { t with maxIdleTimeoutMs := n }) rfl (fun _ => rfl)
    h.maxIdleTimeoutMs).cons ?_
  refine (codes_numeric (fun t n => { t with maxUdpPayloadSize := n }) rfl (fun _ => rfl)
    h.maxUdpPayloadSize).cons ?_
  refine (codes_numeric (fun t n => { t with initialMaxData := n }) rfl (fun _ => rfl)
    h.initialMaxData).cons ?_
  refine (codes_numeric (fun t n => { t with initialMaxStreamDataBidiLocal := n }) rfl (fun _ => rfl)
    h.initialMaxStreamDataBidiLocal).cons ?_
  refine (codes_numeric (fun t n => { t with initialMaxStreamDataBidiRemote := n }) rfl (fun _ => rfl)
    h.initialMaxStreamDataBidiRemote).cons ?_
  refine (codes_numeric (fun t n => { t with initialMaxStreamDataUni := n }) rfl (fun _ => rfl)
    h.initialMaxStreamDataUni).cons ?_
  refine (codes_numeric (fun t n => { t with initialMaxStreamsBidi := n }) rfl (fun _ => rfl)
    h.initialMaxStreamsBidi).cons ?_
  refine (codes_numeric (fun t n => { t with initialMaxStreamsUni := n }) rfl (fun _ => rfl)
    h.initialMaxStreamsUni).cons ?_
  refine (codes_numeric (fun t n => { t with ackDelayExponent := n }) rfl (fun _ => rfl)
    h.ackDelayExponent).cons ?_
  refine (codes_numeric (fun t n => { t with maxAckDelayMs := n }) rfl (fun _ => rfl)
    h.maxAckDelayMs).cons ?_
  refine (codes_numeric (fun t n => { t with activeConnectionIdLimit := n }) rfl (fun _ => rfl)
    h.activeConnectionIdLimit).cons ?_
  refine (codes_flag (fun t b => { t with disableActiveMigration := b }) rfl rfl _).cons ?_
  exact codes_unknown hnew

theorem appendParam_isSome {id : Nat} :
    (appendParam id value).isSome ↔ id ≤ kMax ∧ value.length ≤ kMax := by
  simp [appendParam, concatAll_isSome, encode_isSome]

theorem TransportParamId.code_le (id : TransportParamId) : id.code ≤ kMax := by
  cases id <;> decide

theorem encodeOptional_isSome {id : TransportParamId} {value : Option Bytes}
    (h : ∀ v, value = some v → v.length ≤ kMax) : (encodeOptional id value).isSome := by
  cases value with
  | none => rfl
  | some v => exact appendParam_isSome.mpr ⟨id.code_le, h v rfl⟩

theorem encodeNumeric_isSome {id : TransportParamId} {value default : Nat}
    (h : value ≤ kMax) : (encodeNumeric id value default).isSome := by
  unfold encodeNumeric
  split
  · obtain ⟨v, hv⟩ := encode_of_le h
    have hlen := (length_encode hv).2
    rw [appendVarintParam, hv]
    exact appendParam_isSome.mpr ⟨id.code_le, hlen.trans (by decide)⟩
  · rfl

theorem encodeTransportParams_isSome {tp : TransportParameters} (h : tp.Fits) :
    (encodeTransportParams tp).isSome := by
  have hcid {v : Bytes} (hv : v.length ≤ kMaxCidLen) : v.length ≤ kMax :=
    hv.trans (by decide)
  rw [encodeTransportParams, concatAll_isSome, forall_mem_append]
  constructor
  · simp only [forall_mem_cons, not_mem_nil, false_imp_iff, implies_true, and_true]
    refine ⟨encodeOptional_isSome fun v hv => hcid (h.originalDestinationConnectionId v hv),
      encodeOptional_isSome fun v hv => hcid (h.initialSourceConnectionId v hv),
      encodeOptional_isSome fun v hv => hcid (h.retrySourceConnectionId v hv),
      encodeOptional_isSome fun v hv => (h.statelessResetToken v hv).le.trans (by decide),
      encodeNumeric_isSome h.maxIdleTimeoutMs, encodeNumeric_isSome h.maxUdpPayloadSize,
      encodeNumeric_isSome h.initialMaxData,
      encodeNumeric_isSome h.initialMaxStreamDataBidiLocal,
      encodeNumeric_isSome h.initialMaxStreamDataBidiRemote,
      encodeNumeric_isSome h.initialMaxStreamDataUni,
      encodeNumeric_isSome h.initialMaxStreamsBidi, encodeNumeric_isSome h.initialMaxStreamsUni,
      encodeNumeric_isSome h.ackDelayExponent, encodeNumeric_isSome h.maxAckDelayMs,
      encodeNumeric_isSome h.activeConnectionIdLimit, ?_⟩
    cases tp.disableActiveMigration <;> rfl
  · intro p hp
    obtain ⟨u, hu, rfl⟩ := mem_map.mp hp
    exact appendParam_isSome.mpr (h.unknown u hu)

theorem TransportParamId.ofCode_code (id : TransportParamId) : ofCode id.code = some id := by
  cases id <;> rfl

/-- Known identifiers differ from each other and from those that are not known. -/
theorem nodup_ids {unknown : List UnknownParam} (hdistinct : (unknown.map (·.id)).Nodup)
    (hnew : ∀ u ∈ unknown, ofCode u.id = none) :
    (knownIds.map (·.code) ++ unknown.map (·.id)).Nodup := by
  refine nodup_append.mpr ⟨by decide, hdistinct, ?_⟩
  intro n hn m hm heq
  obtain ⟨k, -, rfl⟩ := mem_map.mp hn
  obtain ⟨u, hu, rfl⟩ := mem_map.mp hm
  have := hnew u hu
  rw [← heq, ofCode_code] at this
  cases this

/-- Every record within the format, with unknown entries under distinct identifiers that are not
known ones, is encoded, and the decoder accepts the block and returns the record. -/
theorem decodeTransportParams_encode (tp : TransportParameters) (h : tp.Fits)
    (hdistinct : (tp.unknown.map (·.id)).Nodup)
    (hnew : ∀ u ∈ tp.unknown, ofCode u.id = none) :
    ∃ wire, encodeTransportParams tp = some wire ∧
      decodeTransportParams wire {} = (true, tp) := by
  obtain ⟨wire, hwire⟩ := Option.isSome_iff_exists.mp (encodeTransportParams_isSome h)
  obtain ⟨entries, heq, hids, hset⟩ := codes_encodeTransportParams h hnew
  refine ⟨wire, hwire, ?_⟩
  exact decodeParamsFrom_entries hset (heq ▸ hwire) ((nodup_ids hdistinct hnew).sublist hids)
    (fun _ _ => not_mem_nil) le_rfl (.start wire)

def mixedParams : TransportParameters where
  originalDestinationConnectionId := some [1, 2, 3]
  statelessResetToken := some (List.replicate 16 7)
  maxIdleTimeoutMs := 30000
  ackDelayExponent := 0
  disableActiveMigration := true
  unknown := [⟨0x11, [9]⟩, ⟨0x2ab2, []⟩]

theorem decodeTransportParams_mixedParams :
    mixedParams.Fits ∧ (mixedParams.unknown.map (·.id)).Nodup ∧
    (∀ u ∈ mixedParams.unknown, ofCode u.id = none) ∧
    ∃ wire, encodeTransportParams mixedParams = some wire ∧
      decodeTransportParams wire {} = (true, mixedParams) := by
  have hfits : mixedParams.Fits := by
    constructor <;> simp [mixedParams, kMaxCidLen, kMax]
  exact ⟨hfits, by decide, by decide, decodeTransportParams_encode _ hfits (by decide) (by decide)⟩

end Spaznet.Quic
