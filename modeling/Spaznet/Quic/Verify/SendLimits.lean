import Spaznet.Quic.Connection.Charge
import Spaznet.Quic.Connection.Plain
import Spaznet.Quic.Connection.Settle
import Spaznet.Quic.Connection.StreamStep

/-!
# Send flow control

The peer's limits hold in every run: `conn_send_total_` stays within the largest connection limit
that was advertised, and each `send_next_offset_` within the largest limit of its stream. The total
is the number of bytes on the wire as long as each packet that takes fresh bytes also goes out, and
no stream is opened under an id that was used up.
-/

namespace Spaznet.Quic

open Ranges Option Finset Connection

namespace Stream

/-- What happens to a send side when nothing is pulled: the limit may rise to `limit`, and frames in
flight may be declared lost. -/
structure Held (flight : List StreamFrame) (id limit : Nat) (s s' : Stream) : Prop where
  next : s'.sendNextOffset = s.sendNextOffset
  limit_ge : s.sendLimit ≤ s'.sendLimit
  limit_le : s'.sendLimit ≤ max s.sendLimit limit
  lost : ∀ r ∈ s'.lostRanges, r ∈ s.lostRanges ∨ ∃ sf ∈ flight, sf.streamId = id ∧ sf.range = r

/-- What pulling goes by: the next offset, the limit, and the lost ranges. -/
def queue (s : Stream) : Nat × Nat × List (Nat × Nat) :=
  (s.sendNextOffset, s.sendLimit, s.lostRanges)

theorem queue_of_forgetReceived {s s' : Stream} (h : s'.forgetReceived = s.forgetReceived) :
    s'.queue = s.queue :=
  (congrArg queue h :)

namespace Held

variable {flight : List StreamFrame} {k limit : Nat} {s s' s'' : Stream}

theorem of_queue (h : s'.queue = s.queue) : s.Held flight k limit s' := by
  simp only [queue, Prod.mk.injEq] at h
  obtain ⟨hnext, hlimit, hlost⟩ := h
  exact ⟨hnext, hlimit.ge, hlimit.le.trans (le_max_left ..), fun r hr => .inl (hlost ▸ hr)⟩

theorem congr (h : s.Held flight k limit s') (hq : s''.queue = s'.queue) :
    s.Held flight k limit s'' := by
  simp only [queue, Prod.mk.injEq] at hq
  obtain ⟨hnext, hlimit, hlost⟩ := hq
  exact ⟨hnext.trans h.next, hlimit ▸ h.limit_ge, hlimit ▸ h.limit_le, hlost ▸ h.lost⟩

theorem onLost (h : s.Held flight k limit s') (hsf : sf ∈ flight) (hid : sf.streamId = k) :
    s.Held flight k limit (s'.onLost sf.offset sf.data.length) := by
  have hlost : s.Held flight k limit { s' with lostRanges :=
      if sf.data.length > 0 then s'.lostRanges ++ [sf.range] else s'.lostRanges } := by
    refine { h with lost := fun r hr => ?_ }
    split at hr
    · rcases List.mem_append.1 hr with hr | hr
      · exact h.lost r hr
      · exact .inr ⟨sf, hsf, hid, (List.mem_singleton.1 hr).symm⟩
    · exact h.lost r hr
  refine hlost.congr ?_
  unfold Stream.onLost
  dsimp only
  split <;> split <;> rfl

end Held

end Stream

def Action.maxData : Action → Nat
  | .frame _ (.maxData maximum) => maximum
  | _ => 0

def Action.maxStreamData (id : Nat) : Action → Nat
  | .frame _ (.maxStreamData streamId maximum) => if streamId = id then maximum else 0
  | _ => 0

namespace Connection

variable {c c' : Connection}

/-! ## Settling -/

theorem findStream_updateStream (h : (c.updateStream k f).findStream j = some s') :
    c.findStream j = some s' ∨ j = k ∧ ∃ s, c.findStream j = some s ∧ f s = some s' := by
  unfold updateStream at h
  split at h
  · exact .inl h
  next s hs =>
    split at h
    · exact .inl h
    next s₁ hs₁ =>
      have hfind := OrdMap.find?_modify c.streams k (fun _ => s₁) j
      rw [show c.streams.find? j = c.findStream j from rfl] at hfind
      have h := hfind.symm.trans h
      split at h
      next hj =>
        rw [hj, hs] at h
        obtain rfl := Option.some.inj h
        exact .inr ⟨hj, s, hj ▸ hs, hs₁⟩
      next => exact .inl h

/-- Every send side of the second state is one of the first, possibly with lost ranges. -/
def Keeps (c c' : Connection) : Prop :=
  ∀ id s', c'.findStream id = some s' → ∃ s, c.findStream id = some s ∧
    s.Held (flight c.sent) id 0 s'

theorem Keeps.updateStream (h : Keeps c c')
    (hf : ∀ s s₁ s₂ : Stream, s.Held (flight c.sent) k 0 s₁ → f s₁ = some s₂ →
      s.Held (flight c.sent) k 0 s₂) : Keeps c (c'.updateStream k f) := by
  intro id s' hs'
  rcases findStream_updateStream hs' with hs' | ⟨rfl, s₁, hs₁, hfs⟩
  · exact h id s' hs'
  · obtain ⟨s, hs, hheld⟩ := h id s₁ hs₁
    exact ⟨s, hs, hf s s₁ s' hheld hfs⟩

theorem Keeps.streamsAcked (h : Keeps c c') (frames : List StreamFrame) :
    Keeps c (frames.foldl streamAcked c') := by
  induction frames generalizing c' with
  | nil => exact h
  | cons sf frames ih =>
    refine ih (h.updateStream fun _ _ _ hheld ha => ?_)
    exact hheld.congr (congrArg Stream.queue (Stream.forgetAcked_onAcked ha) :)

theorem Keeps.streamsLost (h : Keeps c c') (frames : List StreamFrame)
    (hflight : ∀ sf ∈ frames, sf ∈ flight c.sent) : Keeps c (frames.foldl streamLost c') := by
  induction frames generalizing c' with
  | nil => exact h
  | cons sf frames ih =>
    refine ih (h.updateStream fun _ _ _ hheld ha => ?_) fun sf' hsf' =>
      hflight sf' (List.mem_cons_of_mem _ hsf')
    obtain rfl := Option.some.inj ha
    exact hheld.onLost (hflight sf (List.mem_cons_self)) rfl

theorem settles_keeps (env : Env) (c : Connection) :
    Settles env (fun c' => SentLe c' c ∧ Keeps c c') fun _ => True where
  ack {c' level e} h _ _ := ⟨(sentLe_erase (sent_ackEntry c' env level e)).trans h.1,
    (h.2.streamsAcked e.2.streams :)⟩
  lose {c' level e} h he := by
    refine ⟨(sentLe_erase (sent_loseEntry c' env level e)).trans h.1, ?_⟩
    have hlost : Keeps c (e.2.streams.foldl streamLost c') :=
      h.2.streamsLost e.2.streams fun sf hsf =>
        mem_flight.2 ⟨level, e.1, e.2, h.1 level e.1 e.2 (OrdMap.mem_entries.1 he), hsf⟩
    have hsame : (loseEntry env level c' e).findStream =
        (e.2.streams.foldl streamLost c').findStream := by
      unfold loseEntry declareLost
      split <;> rfl
    unfold Keeps
    rw [hsame]
    exact hlost
  note _ _ _ h := h

/-! ## One action -/

theorem connSend_act (c : Connection) (env : Env) (hs : ∀ level, a ≠ .send level) :
    (c.act env a).connSendTotal = c.connSendTotal ∧
      c.connSendMaxData ≤ (c.act env a).connSendMaxData ∧
      (c.act env a).connSendMaxData ≤ max c.connSendMaxData a.maxData := by
  have hsame (h : ∀ c, ((a.forget c).connSendMaxData, (a.forget c).connSendTotal) =
      (c.connSendMaxData, c.connSendTotal)) : (c.act env a).connSendTotal = c.connSendTotal ∧
        c.connSendMaxData ≤ (c.act env a).connSendMaxData ∧
        (c.act env a).connSendMaxData ≤ max c.connSendMaxData a.maxData := by
    obtain ⟨hmax, htotal⟩ := Prod.mk.inj
      (c.act_frame env (fun c => (c.connSendMaxData, c.connSendTotal)) h)
    exact ⟨htotal, hmax.ge, hmax.le.trans (le_max_left ..)⟩
  cases a with
  | send level => exact absurd rfl (hs level)
  | frame level f =>
    cases f with
    | maxData maximum =>
      simp only [act, onFrame]
      split
      next h => exact ⟨rfl, by dsimp only; omega, le_max_right ..⟩
      next h => exact ⟨rfl, le_rfl, le_max_left ..⟩
    | _ => exact hsame fun _ => rfl
  | _ => exact hsame fun _ => rfl

theorem held_act (c : Connection) (env : Env) (hsend : ∀ level, a ≠ .send level)
    (hs' : (c.act env a).findStream k = some s') :
    (c.streamOrNew k).Held (flight c.sent) k (a.maxStreamData k) s' := by
  have hnew {s : Stream} (hs : c.findStream k = some s) : c.streamOrNew k = s := by
    rw [streamOrNew, hs, getD_some]
  have hstep := c.streamStep_act env a k
  generalize ho : (c.act env a).findStream k = o at hstep
  rw [hs'] at ho
  cases hstep with
  | same =>
    rw [hnew ho.symm]
    exact .of_queue rfl
  | delivered hid =>
    subst hid
    cases ho
    exact .of_queue (Stream.queue_of_forgetReceived (c.forgetReceived_streamAfter_stream _))
  | reset hid =>
    subst hid
    cases ho
    exact .of_queue (Stream.queue_of_forgetReceived (c.forgetReceived_streamAfter_reset _))
  | limited hs =>
    cases ho
    rw [hnew hs]
    unfold Stream.setSendLimit
    split
    next hlt =>
      refine ⟨rfl, hlt.le, ?_, fun r hr => .inl hr⟩
      simp [Action.maxStreamData]
    next => exact .of_queue rfl
  | written =>
    cases ho
    refine .of_queue ?_
    unfold Stream.write
    split <;> rfl
  | read hs =>
    cases ho
    rw [hnew hs]
    exact .of_queue (Stream.queue_of_forgetReceived (Stream.forgetReceived_readContiguous _))
  | retired => cases ho
  | sendSide ha =>
    obtain ⟨s, hs, hheld⟩ : ∃ s, c.findStream k = some s ∧ s.Held (flight c.sent) k 0 s' := by
      refine (?_ : Keeps c (c.act env a)) k s' hs'
      have hkeeps : SentLe c c ∧ Keeps c c := ⟨.refl c, fun _ s hs => ⟨s, hs, .of_queue rfl⟩⟩
      cases a with
      | send level => exact absurd rfl (hsend level)
      | checkPto => exact ((settles_keeps env c).checkPto hkeeps).2
      | frame level f =>
        cases f with
        | ack f => exact ((settles_keeps env c).onAckFrame hkeeps level f fun _ _ _ => trivial).2
        | _ => cases ha
      | _ => cases ha
    rw [hnew hs]
    exact { hheld with limit_le := hheld.limit_le.trans (by simp) }

theorem OnWire.held {frames : List StreamFrame}
    (h : OnWire wire k s) (hheld : s.Held frames k limit s') (hframes : bytesOf frames ⊆ wire) :
    OnWire wire k s' := by
  refine ⟨fun i => hheld.next ▸ h.sent i, fun i hi => ?_⟩
  rw [hheld.next]
  obtain ⟨range, hrange, hin⟩ := hi
  rcases hheld.lost range hrange with hold | ⟨sf, hsf, hid, rfl⟩
  · exact h.lost i ⟨range, hold, hin⟩
  · exact (h.sent i).1 (hframes (mem_bytesOf.2 ⟨sf, hsf, hid, hin⟩))

end Connection

namespace Run

open Connection

/-! ## Along a run -/

def sentBytes (env : Env) (x : Connection × Action) : Finset (Nat × Nat) :=
  match x.2 with
  | .send level => bytesOf (x.1.streamsOut env level)
  | _ => ∅

def wire (env : Env) (trace : List (Connection × Action)) : Finset (Nat × Nat) :=
  trace.foldr (fun x bytes => sentBytes env x ∪ bytes) ∅

/-- The largest connection limit the peer has advertised, as a parameter or in MAX_DATA. -/
def maxDataSeen (trace : List (Connection × Action)) : Nat :=
  trace.foldr (fun x limit => max limit (max x.1.peerTp.initialMaxData x.2.maxData)) 0

/-- The largest limit the peer has advertised for a stream, as a parameter or in
MAX_STREAM_DATA. -/
def streamLimitSeen (id : Nat) (trace : List (Connection × Action)) : Nat :=
  trace.foldr (fun x limit => max limit (max (x.1.initialLimits id).2 (x.2.maxStreamData id))) 0

structure WithinLimits (r : Run) : Prop where
  total : r.conn.connSendTotal ≤ r.conn.connSendMaxData
  maxData : r.conn.connSendMaxData ≤ maxDataSeen r.trace
  streams : ∀ id s, r.conn.findStream id = some s →
    s.sendNextOffset ≤ s.sendLimit ∧ s.sendLimit ≤ streamLimitSeen id r.trace

variable {env : Env} {r : Run}

namespace WithinLimits

theorem of_conn (hconn : (r.perform env a).conn = c) (htotal : c.connSendTotal ≤ c.connSendMaxData)
    (hmaxData : c.connSendMaxData ≤
      max (maxDataSeen r.trace) (max r.conn.peerTp.initialMaxData a.maxData))
    (hstreams : ∀ id s, c.findStream id = some s → s.sendNextOffset ≤ s.sendLimit ∧
      s.sendLimit ≤
        max (streamLimitSeen id r.trace) (max (r.conn.initialLimits id).2 (a.maxStreamData id))) :
    WithinLimits (r.perform env a) := by
  subst hconn
  exact ⟨htotal, hmaxData, hstreams⟩

theorem send (env : Env) (h : WithinLimits r) (hf : r.conn.faulted = false)
    (level : EncryptionLevel) : WithinLimits (r.perform env (.send level)) := by
  have hconn : (r.perform env (.send level)).conn = (r.conn.buildAndSend env level).conn :=
    perform_of_not_faulted env hf _
  obtain ⟨frames, hcharged, -⟩ := r.conn.charged_buildAndSend env level
  obtain ⟨hmax_ge, hmax_le⟩ := hcharged.maxData
  have htotal := h.total
  have hmaxData := h.maxData
  have htotal' := hcharged.total_le
  refine of_conn hconn (by omega) (by omega) fun k s' hs' => ?_
  obtain ⟨s, own, hs, hpulls⟩ := hcharged.streams k s' hs'
  have hold := h.streams k s hs
  have hnext := hpulls.le_limit
  rw [hpulls.limit]
  omega

theorem other (env : Env) (h : WithinLimits r) (hf : r.conn.faulted = false)
    (hsend : ∀ level, a ≠ .send level) : WithinLimits (r.perform env a) := by
  have hconn : (r.perform env a).conn = r.conn.act env a :=
    perform_of_not_faulted env hf a
  obtain ⟨htotal', hmax_ge, hmax_le⟩ := r.conn.connSend_act env hsend
  have htotal := h.total
  have hmaxData := h.maxData
  refine of_conn hconn (by omega) (by omega) fun k s' hs' => ?_
  obtain ⟨hnext, hge, hle, -⟩ := r.conn.held_act env hsend hs'
  -- a stream that was not there starts with the limit of the peer's parameters
  have hold : (r.conn.streamOrNew k).sendNextOffset ≤ (r.conn.streamOrNew k).sendLimit ∧
      (r.conn.streamOrNew k).sendLimit ≤
        max (streamLimitSeen k r.trace) (r.conn.initialLimits k).2 := by
    unfold streamOrNew
    cases hs : r.conn.findStream k with
    | some s =>
      have hlimits := h.streams k s hs
      rw [getD_some]
      omega
    | none => exact ⟨Nat.zero_le _, le_max_right ..⟩
  omega

theorem step (env : Env) (h : WithinLimits r) (a : Action) : WithinLimits (r.perform env a) := by
  cases hf : r.conn.faulted with
  | true =>
    refine of_conn (perform_of_faulted env hf a) h.total
      (h.maxData.trans (le_max_left ..)) fun k s hs => ?_
    obtain ⟨hnext, hlimit⟩ := h.streams k s hs
    exact ⟨hnext, hlimit.trans (le_max_left ..)⟩
  | false =>
    rcases a.send_or_ne with ⟨level, rfl⟩ | hsend
    · exact h.send env hf level
    · exact h.other env hf hsend

end WithinLimits

/-- Where fresh bytes are taken for a 1-RTT packet, the packet can be encoded, built and sealed. -/
def Transmits (env : Env) (c : Connection) (a : Action) : Prop :=
  a = .send .application → ∀ frames ∈ c.nextFrames .application,
    (∃ sf ∈ frames.filterMap Frame.stream?,
      (c.streamOrNew sf.streamId).sendNextOffset < sf.offset + sf.data.length) →
    ((encodeFrames frames).bind (c.nextPacket env .application)).isSome = true

/-- No stream is opened under an id of which bytes are on the wire. -/
def OpensUnused (env : Env) (x : Connection × Action) (past : List (Connection × Action)) : Prop :=
  ∀ id, x.1.findStream id = none → x.2.Opens x.1 id → ∀ i, (id, i) ∉ wire env past

/-- The total is the number of bytes on the wire. -/
structure Tallied (env : Env) (r : Run) : Prop where
  total : r.conn.connSendTotal = (wire env r.trace).card
  streams : ∀ id s, r.conn.findStream id = some s → OnWire (wire env r.trace) id s
  flight : bytesOf (flight r.conn.sent) ⊆ wire env r.trace
  fresh : PnFresh r.conn

theorem mem_bytesOf_flight {sent : EncryptionLevel → OrdMap SentRecord} :
    (k, i) ∈ bytesOf (flight sent) ↔ ∃ level pn rec, (sent level).find? pn = some rec ∧
      (k, i) ∈ bytesOf rec.streams := by
  simp only [mem_bytesOf, mem_flight]
  constructor
  · rintro ⟨sf, ⟨level, pn, rec, hrec, hsf⟩, hin⟩
    exact ⟨level, pn, rec, hrec, sf, hsf, hin⟩
  · rintro ⟨level, pn, rec, hrec, sf, hsf, hin⟩
    exact ⟨sf, ⟨level, pn, rec, hrec, hsf⟩, hin⟩

theorem Tallied.other (env : Env) (h : Tallied env r) (hf : r.conn.faulted = false)
    (hsend : ∀ level, a ≠ .send level) (hopens : OpensUnused env (r.conn, a) r.trace) :
    Tallied env (r.perform env a) := by
  have hconn : (r.perform env a).conn = r.conn.act env a :=
    perform_of_not_faulted env hf a
  have hwire : wire env (r.perform env a).trace = wire env r.trace := by
    show sentBytes env (r.conn, a) ∪ wire env r.trace = _
    have hnone : sentBytes env (r.conn, a) = ∅ := by
      unfold sentBytes
      split
      next level heq => exact absurd heq (hsend level)
      next => rfl
    rw [hnone, empty_union]
  refine ⟨?_, fun k s' hs' => ?_, ?_, ?_⟩
  · rw [hwire, hconn, (r.conn.connSend_act env hsend).1]
    exact h.total
  · rw [hconn] at hs'
    rw [hwire]
    have hheld := r.conn.held_act env hsend hs'
    refine OnWire.held ?_ hheld h.flight
    cases hs : r.conn.findStream k with
    | some s =>
      rw [streamOrNew, hs]
      exact h.streams k s hs
    | none =>
      have hopened : a.Opens r.conn k := by
        by_contra hno
        rw [(findStream_act_eq_none_iff env a hs).2 hno] at hs'
        cases hs'
      rw [streamOrNew, hs]
      refine ⟨fun i => iff_of_false (hopens k hs hopened i) (Nat.not_lt_zero i), ?_⟩
      rintro i ⟨range, hrange, -⟩
      exact absurd hrange List.not_mem_nil
  · rw [hwire, hconn]
    rintro ⟨k, i⟩ hin
    obtain ⟨level, pn, rec, hrec, hin⟩ := mem_bytesOf_flight.1 hin
    exact h.flight (mem_bytesOf_flight.2
      ⟨level, pn, rec, r.conn.sentLe_act env hsend level pn rec hrec, hin⟩)
  · exact h.fresh.perform env a

theorem Tallied.send (env : Env) (h : Tallied env r) (hf : r.conn.faulted = false)
    (level : EncryptionLevel) (hgoes : Transmits env r.conn (.send level))
    (hf' : (r.perform env (.send level)).conn.faulted = false) :
    Tallied env (r.perform env (.send level)) := by
  have hconn : (r.perform env (.send level)).conn = (r.conn.buildAndSend env level).conn :=
    perform_of_not_faulted env hf _
  have hwire : wire env (r.perform env (.send level)).trace =
      wire env r.trace ∪ bytesOf (r.conn.streamsOut env level) := union_comm ..
  have hrec := r.conn.recorded_buildAndSend env level
  obtain ⟨frames, hcharged, hframes, hmeant⟩ := r.conn.charged_buildAndSend env level
  obtain ⟨htotal, hstreams⟩ := hcharged.onWire (wire env r.trace) h.streams
  rw [hconn] at hf'
  have hfresh : PnFresh (r.conn.buildAndSend env level).conn := h.fresh.buildAndSend env level
  by_cases hout : r.conn.pendingClose = none ∧
      (r.conn.buildAndSend env level).datagram.isSome = true
  · have hsame : bytesOf (r.conn.streamsOut env level) = bytesOf frames :=
      bytesOf_congr fun sf => by
        rw [mem_streamsOut, hframes hout]
        exact and_iff_right hout
    refine ⟨?_, fun k s' hs' => ?_, ?_, hconn ▸ hfresh⟩
    · rw [hconn, hwire, hsame, htotal, h.total, union_comm, ← card_sdiff_add_card,
        Nat.add_comm]
    · rw [hconn] at hs'
      rw [hwire, hsame]
      exact hstreams k s' hs'
    · rw [hconn, hwire, hsame]
      rintro ⟨k, i⟩ hin
      obtain ⟨l, pn, rec, hrec', hin⟩ := mem_bytesOf_flight.1 hin
      obtain ⟨new, hnew, hfind⟩ := hrec.find? h.fresh hout
      rw [hfind] at hrec'
      rw [mem_union]
      split at hrec'
      · cases hrec'
        rw [hnew, ← hframes hout] at hin
        exact .inr hin
      · exact .inl (h.flight (mem_bytesOf_flight.2 ⟨l, pn, rec, hrec', hin⟩))
  · have hnone : bytesOf (r.conn.streamsOut env level) = ∅ := by
      ext ⟨k, i⟩
      simp only [mem_bytesOf, mem_streamsOut, notMem_empty, iff_false]
      rintro ⟨sf, ⟨h, -⟩, -⟩
      exact hout h
    -- nothing went out, so nothing fresh was taken
    have hold : bytesOf frames ⊆ wire env r.trace := by
      rintro ⟨k, i⟩ hin
      obtain ⟨sf, hsf, rfl, hwithin⟩ := mem_bytesOf.1 hin
      obtain ⟨next, hnext, hmem⟩ := hmeant hf' sf hsf
      obtain ⟨hopen, hcollected⟩ := (stream_mem_nextFrames hnext sf).1 hmem
      have hlevel : level = .application := by
        by_contra hne
        rw [r.conn.collect_streams_of_ne hne] at hcollected
        exact absurd hcollected List.not_mem_nil
      subst hlevel
      obtain ⟨s, hs⟩ := ne_none_iff_exists'.1 (hcharged.live sf hsf)
      refine ((h.streams _ s hs).sent i).2 ?_
      by_contra hge
      refine hout ⟨hopen, ?_⟩
      rw [datagram_buildAndSend, hnext]
      refine hgoes rfl next hnext ⟨sf, mem_filterMap_stream?.2 hmem, ?_⟩
      rw [streamOrNew, hs, getD_some]
      have hend : i < sf.offset + sf.data.length := hwithin.2
      omega
    have hsdiff : bytesOf frames \ wire env r.trace = ∅ := sdiff_eq_empty_iff_subset.2 hold
    rw [hsdiff] at htotal
    rw [union_eq_left.2 hold] at hstreams
    rw [hnone, union_empty] at hwire
    refine ⟨?_, fun k s' hs' => ?_, ?_, hconn ▸ hfresh⟩
    · rw [hconn, hwire, htotal]
      exact h.total
    · rw [hconn] at hs'
      rw [hwire]
      exact hstreams k s' hs'
    · rw [hconn, hwire, hrec.kept hout]
      exact h.flight

theorem Tallied.step (env : Env) (a : Action) (h : r.conn.faulted = false → Tallied env r)
    (hgoes : Transmits env r.conn a) (hopens : OpensUnused env (r.conn, a) r.trace)
    (hf' : (r.perform env a).conn.faulted = false) : Tallied env (r.perform env a) := by
  have hf : r.conn.faulted = false := by
    by_contra hf
    have hsame : (r.perform env a).conn = r.conn :=
      perform_of_faulted env (Bool.not_eq_false _ ▸ hf) a
    rw [hsame] at hf'
    exact hf hf'
  rcases a.send_or_ne with ⟨level, rfl⟩ | hsend
  · exact (h hf).send env hf level hgoes hf'
  · exact (h hf).other env hf hsend hopens

instance (env : Env) (c : Connection) (a : Action) : Decidable (Transmits env c a) :=
  inferInstanceAs (Decidable (_ → _))

end Run

end Spaznet.Quic
