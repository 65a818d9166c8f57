import Spaznet.Quic.Connection.Plain
import Spaznet.Quic.Connection.StreamStep
import Spaznet.Quic.Stream.Window

/-!
# Connection-level receive flow control

`conn_recv_total_` is the sum of the high-water marks of all streams, live and retired, and lies
between `conn_recv_consumed_` and `conn_recv_max_data_`. The one place where this can break is the
64-bit sum `conn_recv_consumed_ + window` of `extend_conn_recv_window`.
-/

namespace Spaznet.Quic

open List Word64 OrdMap

def Action.retiredHighWater (c : Connection) : Action → Nat
  | .retire => if c.faulted then 0 else (c.closedStreams.map fun e => e.2.recvHighWater).sum
  | _ => 0

namespace Connection

def liveHighWater (c : Connection) : Nat := c.streams.sum fun _ s => s.recvHighWater

/-- The members that receive flow control reads and writes. -/
structure RecvCore where
  streams : OrdMap Stream
  total : Nat
  maxData : Nat
  consumed : Nat
  retired : Nat
  localTp : TransportParameters

def recvCore (c : Connection) : RecvCore :=
  ⟨c.inboundStreams, c.connRecvTotal, c.connRecvMaxData, c.connRecvConsumed, c.retiredRecvConsumed,
    c.localTp⟩

/-- The accounts of a connection whose retired streams had received `retired` bytes. -/
structure RecvInv (retired : Nat) (c : Connection) : Prop where
  window : ∀ id s, c.findStream id = some s → s.Window
  total : c.connRecvTotal = c.liveHighWater + retired
  retired : c.retiredRecvConsumed = retired
  consumed : c.connRecvConsumed ≤ c.connRecvTotal
  limit : c.connRecvTotal ≤ c.connRecvMaxData
  word : c.connRecvMaxData < 2 ^ 64
  tp : c.localTp.initialMaxData ≤ VarInt.kMax

theorem liveHighWater_eq_inbound (c : Connection) :
    c.liveHighWater = c.inboundStreams.sum fun _ s => s.recvHighWater := by
  simp [liveHighWater, inboundStreams, OrdMap.sum, OrdMap.map, Function.comp_def, Stream.inbound]

theorem window_of_inbound {s s' : Stream} (h : s'.inbound = s.inbound) (hs : s.Window) :
    s'.Window := by
  have hin : s.inbound.Window := ⟨hs.cursor, hs.chunks, hs.high⟩
  rw [← h] at hin
  exact ⟨hin.cursor, hin.chunks, hin.high⟩

theorem findStream_inbound {c c' : Connection} (h : c'.inboundStreams = c.inboundStreams)
    (hs' : c'.findStream k = some s') : ∃ s, c.findStream k = some s ∧ s'.inbound = s.inbound := by
  have hk := findStream_of_inbound h k
  rw [hs'] at hk
  obtain ⟨s, hs, heq⟩ := Option.map_eq_some_iff.1 hk.symm
  exact ⟨s, hs, heq.symm⟩

/-- What the accounts rely on: an accepted frame keeps the stream's window and raises the high-water
mark to its end at most. -/
def StreamDelivery.Sound (d : StreamDelivery) : Prop :=
  ∀ s : Stream, s.Window → d.overflows = false → (d.apply s).2.Window ∧
    s.recvHighWater ≤ (d.apply s).2.recvHighWater ∧
      (d.apply s).2.recvHighWater ≤ max s.recvHighWater d.end_

theorem sound_streamDelivery (f : StreamFrame) : (streamDelivery f).Sound := by
  intro s hs hover
  simp only [streamDelivery, Bool.or_eq_false_iff, decide_eq_false_iff_not] at hover
  have hend : f.offset + f.data.length < 2 ^ 62 := by
    unfold kMaxStreamOffset at hover
    omega
  exact ⟨hs.deliver hend, Stream.recvHighWater_deliver _ _ _ _⟩

theorem sound_resetDelivery (f : ResetStreamFrame) : (resetDelivery f).Sound := by
  intro s hs hover
  simp only [resetDelivery, decide_eq_false_iff_not] at hover
  have hend : f.finalSize < 2 ^ 62 := by
    unfold kMaxStreamOffset at hover
    omega
  exact ⟨hs.resetRecvd hend _, s.recvHighWater_resetRecvd _ _⟩

namespace RecvInv

variable {c : Connection} {R : Nat} (h : RecvInv R c)
include h

theorem congr {c' : Connection} (hcore : c'.recvCore = c.recvCore) : RecvInv R c' := by
  obtain ⟨hstreams, htotal, hmax, hcons, hret, htp⟩ := RecvCore.mk.inj hcore
  refine ⟨fun k s' hs' => ?_, ?_, hret.trans h.retired, ?_, ?_, hmax ▸ h.word, htp ▸ h.tp⟩
  · obtain ⟨s, hs, heq⟩ := findStream_inbound hstreams hs'
    exact window_of_inbound heq (h.window k s hs)
  · rw [htotal, h.total, liveHighWater_eq_inbound, liveHighWater_eq_inbound, hstreams]
  · rw [hcons, htotal]
    exact h.consumed
  · rw [htotal, hmax]
    exact h.limit

theorem setStream (hs : c.findStream k = some s) (hw : s'.Window)
    (hgrow : s'.recvHighWater = s.recvHighWater + delta)
    (hroom : c.connRecvTotal + delta ≤ c.connRecvMaxData) :
    RecvInv R { c with
      streams := c.streams.modify k fun _ => s', connRecvTotal := c.connRecvTotal + delta } := by
  refine ⟨fun id t ht => ?_, ?_, h.retired, ?_, hroom, h.word, h.tp⟩
  · have hfind := find?_modify c.streams k (fun _ => s') id
    rw [show (c.streams.modify k fun _ => s').find? id = some t from ht] at hfind
    split at hfind
    next hid =>
      rw [hid, show c.streams.find? k = some s from hs] at hfind
      cases hfind
      exact hw
    next => exact h.window id t hfind.symm
  · have hsum := sum_modify (fun _ s => s.recvHighWater) c.streams k (fun _ => s') hs
    have htotal := h.total
    simp only [liveHighWater] at htotal ⊢
    omega
  · exact h.consumed.trans (Nat.le_add_right _ _)

theorem replaceStream (hs : c.findStream k = some s) (hw : s'.Window)
    (hsame : s'.recvHighWater = s.recvHighWater) :
    RecvInv R { c with streams := c.streams.modify k fun _ => s' } := by
  have hgrow : s'.recvHighWater = s.recvHighWater + 0 := hsame
  exact h.setStream hs hw hgrow h.limit

theorem ensureStream (k : Nat) : RecvInv R (c.ensureStream k).2 := by
  unfold Connection.ensureStream
  split
  · exact h
  next hnone =>
    refine { h with window := fun id t ht => ?_, total := ?_ }
    · have hfind := find?_insert c.streams k (c.newStream k) id
      rw [show (c.streams.insert k (c.newStream k)).find? id = some t from ht] at hfind
      split at hfind
      · cases hfind
        exact ⟨Nat.le_refl 0, fun _ hc => absurd hc not_mem_nil, Nat.two_pow_pos 62⟩
      · exact h.window id t hfind.symm
    · refine h.total.trans (congrArg (· + R) ?_)
      have hsum := sum_insert (fun _ s => s.recvHighWater) c.streams k (c.newStream k)
      rw [erase_of_find?_none hnone] at hsum
      exact (hsum.trans (Nat.zero_add _)).symm

theorem window_streamOrNew (k : Nat) : (c.streamOrNew k).Window :=
  (h.ensureStream k).window k _ (by rw [findStream_ensureStream, if_pos rfl])

/-- The growth of a high-water mark that passed the check fits under the limit. -/
theorem room_of_not_exceeds (hconn : c.exceedsConnLimit prevHw end_ = false)
    (hend : hw ≤ max prevHw end_) (hle : prevHw ≤ hw) :
    c.connRecvTotal + (hw - prevHw) ≤ c.connRecvMaxData := by
  have hlimit := h.limit
  have hsub := sub_eq h.word hlimit
  simp only [exceedsConnLimit, Bool.and_eq_false_iff, decide_eq_false_iff_not] at hconn
  omega

theorem chargeStream (hs : c.findStream k = some s) (hw : s'.Window)
    (hle : s.recvHighWater ≤ s'.recvHighWater)
    (hroom : c.connRecvTotal + (s'.recvHighWater - s.recvHighWater) ≤ c.connRecvMaxData) :
    RecvInv R (c.chargeStream k s.recvHighWater s') := by
  have hset := h.setStream hs hw (by omega) hroom
  have hword := h.word
  have htotal : (if s'.recvHighWater > s.recvHighWater then
      add c.connRecvTotal (s'.recvHighWater - s.recvHighWater) else c.connRecvTotal) =
        c.connRecvTotal + (s'.recvHighWater - s.recvHighWater) := by
    rw [add_eq (by omega)]
    split <;> omega
  unfold Connection.chargeStream
  rwa [htotal]

theorem deliverTo (hd : d.Sound) : RecvInv R (c.deliverTo d) := by
  obtain ⟨code, reason, frameType, heq⟩ := c.deliverTo_eq d
  rw [heq]
  have hensure := h.ensureStream d.streamId
  split
  next hacc =>
    simp only [accepts, admits, Bool.and_eq_true, Bool.not_eq_true'] at hacc
    obtain ⟨⟨⟨-, hover⟩, hconn⟩, -⟩ := hacc
    obtain ⟨hw, hle, hend⟩ := hd _ (h.window_streamOrNew d.streamId) hover
    have hfind := c.findStream_ensureStream d.streamId d.streamId
    rw [if_pos rfl] at hfind
    rw [← exceedsConnLimit_ensureStream] at hconn
    exact hensure.chargeStream hfind hw hle (hensure.room_of_not_exceeds hconn hend hle)
  next =>
    split
    · exact hensure.congr rfl
    · exact h.congr rfl

/-- Retirement moves high-water marks from the live to the retired side. -/
theorem retireClosedStreams :
    RecvInv (R + (c.closedStreams.map fun e => e.2.recvHighWater).sum) c.retireClosedStreams := by
  have hsplit := sum_filter (fun _ s => s.recvHighWater)
    (fun id (s : Stream) => !s.terminal id) c.streams
  have hclosed : (c.closedStreams.map fun e => e.2.recvHighWater).sum =
      sum (fun _ s => s.recvHighWater)
        (c.streams.filter fun id s => !!s.terminal id) := by
    simp [closedStreams, OrdMap.sum, OrdMap.filter]
  have htotal := h.total
  have hlimit := h.limit
  have hword := h.word
  rw [liveHighWater] at htotal
  have hretired : c.retireClosedStreams.retiredRecvConsumed =
      R + (c.closedStreams.map fun e => e.2.recvHighWater).sum := by
    have hfold := foldl_add_eq (a := c.retiredRecvConsumed)
      (g := fun e : Nat × Stream => e.2.recvHighWater) (l := c.closedStreams)
      (by rw [h.retired]; omega)
    exact hfold.trans (by rw [h.retired])
  refine ⟨fun id s hs => ?_, ?_, hretired, h.consumed, hlimit, hword, h.tp⟩
  · have hfind := find?_filter (fun id (s : Stream) => !s.terminal id) c.streams id
    rw [show (c.streams.filter fun id s => !s.terminal id).find? id = some s from hs] at hfind
    exact h.window id s (Option.eq_some_of_filter_eq_some hfind.symm)
  · show c.connRecvTotal = sum (fun _ s => s.recvHighWater)
      (c.streams.filter fun id s => !s.terminal id) + (R + _)
    omega

theorem recvConsumed_le : c.recvConsumed ≤ c.connRecvTotal := by
  have hread : sum (fun _ s => s.recvReadOffset) c.streams ≤
      sum (fun _ s => s.recvHighWater) c.streams :=
    sum_le_sum fun k s hs => (h.window k s hs).cursor
  have htotal := h.total
  have hlimit := h.limit
  have hword := h.word
  rw [liveHighWater] at htotal
  have hfold := foldl_add_eq (a := c.retiredRecvConsumed)
    (by
      rw [h.retired]
      show R + sum (fun _ s => s.recvReadOffset) c.streams < _
      omega)
  refine (le_of_eq hfold).trans ?_
  rw [h.retired]
  show R + sum (fun _ s => s.recvReadOffset) c.streams ≤ _
  omega

end RecvInv

/-- The next window is due: less than half of it is left. -/
def WindowDue (c : Connection) : Prop :=
  c.localTp.initialMaxData ≠ 0 ∧
    c.connRecvMaxData - c.recvConsumed < c.localTp.initialMaxData / 2
  deriving Decidable

namespace RecvInv

variable {c : Connection} {R : Nat} (h : RecvInv R c)
include h

theorem connRecvMaxData_refresh : c.refreshConnRecvWindow.connRecvMaxData =
    if c.WindowDue then add c.recvConsumed c.localTp.initialMaxData
    else c.connRecvMaxData := by
  have hsub := sub_eq h.word (h.recvConsumed_le.trans h.limit)
  simp only [Connection.refreshConnRecvWindow, extendConnRecvWindow, hsub, decide_eq_true_eq]
  exact ite_congr rfl (fun _ => rfl) fun _ => rfl

theorem refreshConnRecvWindow
    (hno : c.WindowDue → c.recvConsumed + c.localTp.initialMaxData < 2 ^ 64) :
    RecvInv R c.refreshConnRecvWindow ∧
      c.connRecvMaxData ≤ c.refreshConnRecvWindow.connRecvMaxData := by
  have hmax := h.connRecvMaxData_refresh
  have hconsumed := h.recvConsumed_le
  have hlimit := h.limit
  have hword := h.word
  have hbounds : c.connRecvMaxData ≤ c.refreshConnRecvWindow.connRecvMaxData ∧
      c.refreshConnRecvWindow.connRecvMaxData < 2 ^ 64 := by
    rw [hmax]
    split
    next hdue =>
      have hsum := hno hdue
      rw [add_eq hsum]
      obtain ⟨-, hhalf⟩ := hdue
      omega
    next => exact ⟨Nat.le_refl _, hword⟩
  exact ⟨{ h with consumed := hconsumed, limit := hlimit.trans hbounds.1, word := hbounds.2 },
    hbounds.1⟩

/-- A sum that wraps moves the limit below what was already received. -/
theorem refresh_wraps (hdue : c.WindowDue)
    (hwrap : 2 ^ 64 ≤ c.recvConsumed + c.localTp.initialMaxData) :
    c.refreshConnRecvWindow.connRecvMaxData < c.connRecvMaxData := by
  have hconsumed := h.recvConsumed_le
  have hlimit := h.limit
  have hword := h.word
  have htp := h.tp
  rw [h.connRecvMaxData_refresh, if_pos hdue]
  unfold VarInt.kMax at htp
  have : add c.recvConsumed c.localTp.initialMaxData =
      c.recvConsumed + c.localTp.initialMaxData - 2 ^ 64 := by
    unfold add
    omega
  omega

theorem writeStream (k : Nat) (data : Bytes) (fin : Bool) :
    RecvInv R (c.writeStream k data fin) := by
  have hensure := h.ensureStream k
  have hfind := c.findStream_ensureStream k k
  rw [if_pos rfl] at hfind
  have hsame : ((c.streamOrNew k).write data fin).inbound = (c.streamOrNew k).inbound :=
    Stream.inbound_write _ data fin
  refine hensure.congr ?_
  have hstreams := (map_modify_eq_iff hfind).2 hsame
  simp only [Connection.writeStream, ensureStream_fst, recvCore, inboundStreams, hstreams]

theorem readStream (k : Nat) : RecvInv R (c.readStream k).2 := by
  unfold Connection.readStream
  split
  · exact h
  next s hs =>
    have hw := (h.window k s hs).readContiguous
    exact h.replaceStream hs hw s.recvHighWater_readContiguous

theorem setSendLimit (k maximum : Nat) :
    RecvInv R (c.updateStream k fun s => some (s.setSendLimit maximum)) := by
  rw [updateStream_some]
  cases hs : c.findStream k with
  | none =>
    rw [modify_of_find?_none hs]
    exact h
  | some s =>
    rw [← modify_of_find?_some hs]
    have hlimit : (s.setSendLimit maximum).recvHighWater = s.recvHighWater ∧
        (s.Window → (s.setSendLimit maximum).Window) := by
      unfold Stream.setSendLimit
      split
      · exact ⟨rfl, fun hw => { hw with }⟩
      · exact ⟨rfl, fun hw => hw⟩
    exact h.replaceStream hs (hlimit.2 (h.window k s hs)) hlimit.1

end RecvInv

theorem recvCore_of_forgetOutbound {c c' : Connection} (h : c'.forgetOutbound = c.forgetOutbound) :
    c'.recvCore = c.recvCore := by
  exact congrArg (fun c : Connection => RecvCore.mk c.streams c.connRecvTotal c.connRecvMaxData
    c.connRecvConsumed c.retiredRecvConsumed c.localTp) h

/-- What an action has to meet: the sum of `extend_conn_recv_window` stays in range. -/
def Action.SumInRange (c : Connection) : Action → Prop
  | .refreshWindow => c.faulted = true ∨
      (c.WindowDue → c.recvConsumed + c.localTp.initialMaxData < 2 ^ 64)
  | _ => True

instance (c : Connection) (a : Action) : Decidable (Action.SumInRange c a) := by
  cases a with
  | refreshWindow =>
    exact inferInstanceAs (Decidable (c.faulted = true ∨
      (c.WindowDue → c.recvConsumed + c.localTp.initialMaxData < 2 ^ 64)))
  | _ => exact isTrue trivial

theorem RecvInv.act (h : RecvInv R c) (env : Env) (a : Action) (hf : c.faulted = false)
    (hsum : Action.SumInRange c a) : RecvInv (R + a.retiredHighWater c) (c.act env a) := by
  cases hq : a.quiet with
  | true =>
    have hcore := (congrArg recvCore (c.forgetQuiet_act env hq) :)
    have hzero : a.retiredHighWater c = 0 := by
      cases a with
      | retire => cases hq
      | _ => rfl
    rw [hzero]
    exact h.congr hcore
  | false =>
    cases a with
    | frame level f =>
      cases f with
      | stream f => exact h.deliverTo (sound_streamDelivery f)
      | resetStream f => exact h.deliverTo (sound_resetDelivery f)
      | ack => exact h.congr (recvCore_of_forgetOutbound (c.forgetOutbound_act env rfl))
      | maxStreamData streamId maximum => exact h.setSendLimit streamId maximum
      | maxData | maxStreams => exact h.congr (c.act_frame env recvCore fun _ => rfl)
      | _ => cases hq
    | send | checkPto => exact h.congr (recvCore_of_forgetOutbound (c.forgetOutbound_act env rfl))
    | retire =>
      rw [Action.retiredHighWater, if_neg (by simp [hf])]
      exact h.retireClosedStreams
    | refreshWindow =>
      exact (h.refreshConnRecvWindow (hsum.resolve_left (by simp [hf]))).1
    | writeStream streamId data fin => exact h.writeStream streamId data fin
    | readStream streamId => exact h.readStream streamId
    | _ => cases hq

theorem connRecvMaxData_act (c : Connection) (env : Env) (ha : a ≠ .refreshWindow) :
    (c.act env a).connRecvMaxData = c.connRecvMaxData := by
  refine c.act_frame env (·.connRecvMaxData) fun c => ?_
  cases a with
  | frame level f => cases f <;> rfl
  | refreshWindow => exact absurd rfl ha
  | _ => rfl

/-- The subtractions that the handling of a frame makes, minuend first. -/
def deliverySubtractions (c : Connection) (d : StreamDelivery) : List (Nat × Nat) :=
  let prevHw := (c.streamOrNew d.streamId).recvHighWater
  let newHw := (c.streamAfter d).recvHighWater
  if c.admits d then
    (if d.end_ > prevHw then [(d.end_, prevHw), (c.connRecvMaxData, c.connRecvTotal)] else []) ++
      if newHw > prevHw then [(newHw, prevHw)] else []
  else []

theorem RecvInv.deliverySubtractions_le (h : RecvInv R c) (d : StreamDelivery) :
    ∀ p ∈ c.deliverySubtractions d, p.2 ≤ p.1 := by
  have hlimit := h.limit
  unfold deliverySubtractions
  dsimp only
  split_ifs <;> simp <;> omega

end Connection

/-- The subtractions on the receive counters that an action makes. -/
def Action.recvSubtractions (c : Connection) : Action → List (Nat × Nat)
  | .frame _ (.stream f) => c.deliverySubtractions (Connection.streamDelivery f)
  | .frame _ (.resetStream f) => c.deliverySubtractions (Connection.resetDelivery f)
  | .refreshWindow =>
    if c.localTp.initialMaxData = 0 then [] else [(c.connRecvMaxData, c.recvConsumed)]
  | _ => []

open Connection

theorem Connection.RecvInv.recvSubtractions_le (h : RecvInv R c) (a : Action) :
    ∀ p ∈ a.recvSubtractions c, p.2 ≤ p.1 := by
  intro p hp
  cases a with
  | frame level f =>
    cases f with
    | stream f | resetStream f => exact h.deliverySubtractions_le _ p hp
    | _ => cases hp
  | refreshWindow =>
    simp only [Action.recvSubtractions] at hp
    split at hp
    · cases hp
    · rw [mem_singleton.1 hp]
      exact h.recvConsumed_le.trans h.limit
  | _ => cases hp

namespace Run

def retiredHighWater (trace : List (Connection × Action)) : Nat :=
  (trace.map fun x => x.2.retiredHighWater x.1).sum

/-- The accounts after a step of a run, that the limit does not go back, and that no subtraction of
the step wraps. -/
structure FlowControlled (env : Env) (x : Connection × Action) (past : List (Connection × Action)) :
    Prop where
  total : (x.1.perform env x.2).connRecvTotal =
    (x.1.perform env x.2).liveHighWater + retiredHighWater (x :: past)
  consumed : (x.1.perform env x.2).connRecvConsumed ≤ (x.1.perform env x.2).connRecvTotal
  limit : (x.1.perform env x.2).connRecvTotal ≤ (x.1.perform env x.2).connRecvMaxData
  grows : x.1.connRecvMaxData ≤ (x.1.perform env x.2).connRecvMaxData
  exact : x.1.faulted = true ∨ ∀ p ∈ x.2.recvSubtractions x.1, p.2 ≤ p.1

theorem recvInv_perform {r : Run} (h : RecvInv (retiredHighWater r.trace) r.conn) (env : Env)
    (hsum : Action.SumInRange r.conn a) :
    RecvInv (retiredHighWater (r.perform env a).trace) (r.perform env a).conn := by
  have hsplit : retiredHighWater (r.perform env a).trace =
      retiredHighWater r.trace + a.retiredHighWater r.conn :=
    sum_cons.trans (Nat.add_comm _ _)
  rw [hsplit]
  show RecvInv _ (r.conn.perform env a)
  unfold Connection.perform
  cases hf : r.conn.faulted with
  | true =>
    have hzero : a.retiredHighWater r.conn = 0 := by
      cases a with
      | retire => exact if_pos hf
      | _ => rfl
    rw [hzero]
    exact h
  | false => exact h.act env a hf hsum

/-- Under the invariant, a step keeps the accounts exactly if its sum stays in range. -/
theorem flowControlled_iff {r : Run} (h : RecvInv (retiredHighWater r.trace) r.conn) (env : Env)
    (a : Action) : FlowControlled env (r.conn, a) r.trace ↔ Action.SumInRange r.conn a := by
  constructor
  · intro hflow
    cases a with
    | refreshWindow =>
      cases hf : r.conn.faulted with
      | true => exact .inl hf
      | false =>
        refine .inr fun hdue => ?_
        by_contra hwrap
        have hless := h.refresh_wraps hdue (Nat.not_lt.1 hwrap)
        have hgrows := hflow.grows
        simp only [Connection.perform, hf] at hgrows
        exact absurd hless (Nat.not_lt.2 hgrows)
    | _ => trivial
  · intro hsum
    have hafter := recvInv_perform h env hsum
    refine ⟨hafter.total, hafter.consumed, hafter.limit, ?_, .inr (h.recvSubtractions_le a)⟩
    unfold Connection.perform
    cases hf : r.conn.faulted with
    | true => exact Nat.le_refl _
    | false =>
      by_cases ha : a = .refreshWindow
      · subst ha
        exact (h.refreshConnRecvWindow (hsum.resolve_left (by simp [hf]))).2
      · exact Nat.le_of_eq (r.conn.connRecvMaxData_act env ha).symm

/-- **Receive flow control.** Along every run of a new connection the accounts of the receive side
are right, the limit never goes back and no subtraction wraps, exactly if the sum of
`extend_conn_recv_window` never leaves the 64-bit range. -/
theorem flowControlled_ofEvents_iff (env : Env) (clientDcid clientScid serverScid : Bytes)
    (tp : TransportParameters) (htp : tp.initialMaxData ≤ VarInt.kMax) (events : List Event) :
    AtEach (FlowControlled env)
        (ofEvents env (.create env clientDcid clientScid serverScid tp) events).trace ↔
      ∀ x ∈ (ofEvents env (.create env clientDcid clientScid serverScid tp) events).trace,
        Action.SumInRange x.1 x.2 := by
  have hinit : RecvInv (retiredHighWater [])
      (.create env clientDcid clientScid serverScid tp) := by
    have hword : tp.initialMaxData < 2 ^ 64 := htp.trans_lt (by decide)
    exact ⟨(fun _ _ hs => by cases hs), rfl, rfl, Nat.le_refl 0, Nat.zero_le _, hword, htp⟩
  exact atEach_iff_forall (I := fun r => RecvInv (retiredHighWater r.trace) r.conn)
    (fun r a h => flowControlled_iff h env a) (fun r a h ha => recvInv_perform h env ha) hinit events

/-- Six bytes arrive and are read, and the window moves on. -/
theorem flowControlled_small : (10 ≤ VarInt.kMax) ∧ AtEach (FlowControlled (Env.plainEstablished {}))
    (ofEvents (Env.plainEstablished {}) (.create (Env.plainEstablished {}) [] [] []
        { initialMaxData := 10, initialMaxStreamsUni := 1, initialMaxStreamDataUni := 10 })
      [.timer, .datagram ([0x40, 0, 0x09, 2, 1, 2, 3, 4, 5, 6] ++ List.replicate 16 0),
        .readStream 2, .timer]).trace :=
  ⟨by decide, (flowControlled_ofEvents_iff _ _ _ _ _ (by decide) _).2 (by decide +kernel)⟩

/-- A 1-RTT packet with a RESET_STREAM frame of the largest final size. -/
def resetPacket (pn streamId : UInt8) : Bytes :=
  [0x40, pn, 0x04, streamId, 0] ++ List.replicate 8 0xff ++ List.replicate 16 0

/-- With the largest window, four streams are reset at the largest final size, each one retired
before the next. -/
def resetRun : Run := ofEvents (Env.plainEstablished {})
  (.create (Env.plainEstablished {}) [] [] []
    { initialMaxData := 2 ^ 62 - 1, initialMaxStreamsUni := 1,
      initialMaxStreamDataUni := 2 ^ 62 - 1 })
  [.timer, .datagram (resetPacket 0 2), .timer, .datagram (resetPacket 1 6), .timer,
    .datagram (resetPacket 2 10), .timer, .datagram (resetPacket 3 14), .timer]

/-- The fourth time the limit wraps around and falls below the bytes already received. -/
theorem window_sum_wraps : ¬ AtEach (FlowControlled (Env.plainEstablished {})) resetRun.trace := by
  have hfalls : (resetRun.trace.drop 4).head?.map (fun x => decide (x.1.connRecvMaxData ≤
      (x.1.perform (Env.plainEstablished {}) x.2).connRecvMaxData)) = some false := by
    decide +kernel
  have hsuffix : resetRun.trace.drop 4 <:+ resetRun.trace := drop_suffix 4 _
  intro h
  generalize resetRun.trace.drop 4 = steps at hfalls hsuffix
  cases steps with
  | nil => cases hfalls
  | cons x past =>
    have hgrows := (h x past hsuffix).grows
    exact of_decide_eq_false (Option.some.inj hfalls) hgrows

end Run

end Spaznet.Quic
