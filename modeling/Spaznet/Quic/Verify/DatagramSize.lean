import Spaznet.Quic.FrameCodec
import Spaznet.Quic.Connection.Charge
import Spaznet.Quic.Connection.Plain

/-!
# The size of a datagram

`build_and_send` budgets each stream by itself and puts everything else that is queued into the same
packet, so nothing but the amount of queued work bounds the datagram. Here that amount is bounded
from the queues, and with it every datagram of a run.
-/

namespace Spaznet.Quic

open List Frame

def Frame.wireBytes (f : Frame) : Nat := ((encodeFrame f).getD []).length

theorem length_encodeFrames {frames : List Frame} (h : encodeFrames frames = some payload) :
    payload.length = (frames.map wireBytes).sum := by
  induction frames generalizing payload with
  | nil => rw [concatAll_nil.mp h]; rfl
  | cons f frames ih =>
    obtain ⟨a, b, ha, hb, rfl⟩ := concatAll_cons.mp h
    rw [length_append, map_cons, sum_cons, ih hb, wireBytes, ha,
      Option.getD_some]

/-- Type, stream id, offset and a length below `2 ^ 14`. -/
def kStreamHeader : Nat := 1 + 8 + 8 + 2

theorem wireBytes_stream_le (h : f.data.length < 2 ^ 14) :
    (stream f).wireBytes ≤ kStreamHeader + f.data.length := by
  unfold wireBytes kStreamHeader
  cases he : encodeFrame (.stream f) with
  | none => exact Nat.zero_le _
  | some e =>
    obtain ⟨front, rest, hfront, hrest, rfl⟩ := concatAll_append.mp he
    obtain ⟨head, off, hhead, hoff, rfl⟩ := concatAll_append.mp hfront
    obtain ⟨type, afterType, htype, hhead', rfl⟩ := concatAll_cons.mp hhead
    obtain ⟨id, afterId, hid, hnil, rfl⟩ := concatAll_cons.mp hhead'
    obtain ⟨len, body, hlen, hbody, rfl⟩ := concatAll_cons.mp hrest
    obtain ⟨data, afterData, hdata, hnil', rfl⟩ := concatAll_cons.mp hbody
    cases htype
    cases hdata
    cases concatAll_nil.mp hnil
    cases concatAll_nil.mp hnil'
    have hid := (VarInt.length_encode hid).2
    have hoff : off.length ≤ 8 := by
      split at hoff
      · obtain ⟨o, _, ho, hnil, rfl⟩ := concatAll_cons.mp hoff
        cases concatAll_nil.mp hnil
        rw [append_nil]
        exact (VarInt.length_encode ho).2
      · cases concatAll_nil.mp hoff
        exact Nat.zero_le _
    have hlen : len.length ≤ 2 := by
      have hsize := VarInt.encodedSize_encode hlen
      unfold VarInt.encodedSize at hsize
      split at hsize
      · have := Option.some.inj hsize
        omega
      · rw [if_pos (by omega)] at hsize
        have := Option.some.inj hsize
        omega
    simp only [Option.getD_some, length_append, length_cons, length_nil]
    omega

namespace Stream

/-- The send counters of a stream that fewer than `2 ^ 64` bytes were written to. -/
def InRange (s : Stream) : Prop := s.sendNextOffset ≤ s.sendHighWater ∧ s.sendHighWater < 2 ^ 64
  deriving Decidable

def available (s : Stream) : Nat :=
  min (s.sendLimit - s.sendNextOffset) (s.sendHighWater - s.sendNextOffset)

def finDue (s : Stream) : Bool :=
  s.sendFinQueued && !s.sendFinSent && s.sendNextOffset == s.sendHighWater

/-- How many frames the waiting bytes make: one for each lost range, one for the rest. -/
def pieces (s : Stream) : Nat :=
  s.lostRanges.length + if 0 < s.available ∨ s.finDue = true then 1 else 0

def waiting (s : Stream) : Nat := (s.lostRanges.map (·.2)).sum + s.available

/-- An upper bound on what the stream puts into a packet. -/
def workBytes (s : Stream) (budget : Nat) : Nat := kStreamHeader * s.pieces + min budget s.waiting

/-! ## One stream -/

/-- Neither budget is left, or nothing waits. -/
def Spent (s : Stream) (budget maxFresh : Nat) : Prop :=
  budget = 0 ∨ s.lostRanges = [] ∧ s.freshTake budget maxFresh = 0 ∧ s.finDue = false

theorem pullSend_of_spent {s : Stream} (h : s.Spent budget maxFresh) :
    s.pullSend budget maxFresh = some ({}, s) := by
  unfold pullSend
  rcases h with h | ⟨hlost, htake, hfin⟩
  · rw [if_pos h]
  have hnone : s.pullFin = ({}, s) := by
    unfold finDue at hfin
    rw [pullFin, hfin]
    rfl
  rw [hlost]
  simp only [htake, if_true, hnone, ite_self]

/-- Fresh bytes are pulled at once: what is left over is held back by a limit. -/
theorem spent_of_fresh {s : Stream} (hr : s.InRange) (hlost : s.lostRanges = [])
    (h : s.pullSend budget maxFresh = some (p, s')) (htaken : p.taken ≠ 0) :
    p.taken ≤ min budget s.available ∧ 0 < s.available ∧
      s'.Spent (budget - p.taken) (Word64.sub maxFresh p.taken) := by
  have hfin (hf : some s.pullFin = some (p, s')) : p.taken = 0 := by
    unfold pullFin at hf
    split at hf <;> cases hf <;> rfl
  have hbuffered : Word64.sub s.sendHighWater s.sendNextOffset =
      s.sendHighWater - s.sendNextOffset := Word64.sub_eq hr.2 hr.1
  unfold pullSend at h
  rw [hlost] at h
  split at h
  · cases h
    exact absurd rfl htaken
  dsimp only at h
  split at h
  · exact absurd (hfin h) htaken
  split at h
  · exact absurd (hfin h) htaken
  obtain ⟨data, -, heq⟩ := Option.map_eq_some_iff.mp h
  cases heq
  dsimp only at htaken ⊢
  obtain ⟨take, htake⟩ : ∃ take, s.freshTake budget maxFresh = take := ⟨_, rfl⟩
  rw [htake] at htaken ⊢
  unfold freshTake at htake
  refine ⟨by unfold available; omega, by unfold available; omega, .inr ⟨hlost, ?_, ?_⟩⟩
  · -- the bound that was met leaves nothing
    have hmet : take = budget ∨ take = s.sendLimit - s.sendNextOffset ∨
        take = s.sendHighWater - s.sendNextOffset ∨ take = maxFresh := by omega
    unfold freshTake
    dsimp only
    rw [Word64.sub_eq hr.2 (by have := hr.1; omega), ← Nat.le_zero]
    obtain heq | heq | heq | heq := hmet
    · exact (min_le_left _ _).trans ((min_le_left _ _).trans (by omega))
    · exact (min_le_left _ _).trans ((min_le_right _ _).trans (by omega))
    · exact (min_le_right _ _).trans ((min_le_left _ _).trans (by omega))
    · refine (min_le_right _ _).trans ((min_le_right _ _).trans ?_)
      rw [heq, Word64.sub_eq (by have := hr.2; omega) le_rfl, Nat.sub_self]
  · simp only [finDue]
    cases s.sendFinQueued <;> cases s.sendFinSent <;>
      cases s.sendNextOffset + take == s.sendHighWater <;> rfl

theorem PullStep.pieces_pos (h : PullStep s budget maxFresh p s')
    (hsome : ¬(p.taken = 0 ∧ !p.fin)) (htaken : p.taken = 0) : 0 < s.pieces := by
  cases h with
  | nothing => exact absurd ⟨rfl, rfl⟩ hsome
  | finOnly hlost hqueued hsent hnext =>
    have hdue : s.finDue = true := by simp [finDue, hqueued, hsent, hnext]
    simp [pieces, hdue]
  | lost _ hlost => simp [pieces, hlost]
  | fresh htake => exact absurd htaken htake

theorem PullStep.taken_le (h : PullStep s budget maxFresh p s') : p.taken ≤ budget := by
  cases h with
  | nothing | finOnly => exact Nat.zero_le _
  | lost => exact Nat.min_le_left ..
  | fresh _ _ _ hfresh => exact hfresh.trans (Nat.min_le_left ..)

theorem workBytes_lost {s s' : Stream} (hlost : s.lostRanges = r :: rest)
    (hlost' : s'.lostRanges = rest) (hrest : s'.available = s.available)
    (hfin : s'.finDue = true → s.finDue = true) (hfits : r.2 ≤ budget) :
    kStreamHeader + r.2 + s'.workBytes (budget - r.2) ≤ s.workBytes budget := by
  have hpieces : s'.pieces + 1 ≤ s.pieces := by
    unfold pieces
    rw [hlost, hlost', hrest, length_cons]
    split
    next hdue => rw [if_pos (hdue.imp_right hfin)]
    next => omega
  have hwaiting : s.waiting = r.2 + s'.waiting := by
    simp only [waiting, hlost, hlost', hrest, map_cons, sum_cons, Nat.add_assoc]
  have := Nat.mul_le_mul_left kStreamHeader hpieces
  unfold workBytes
  rw [Nat.mul_add] at this
  omega

/-- A pull that takes bytes either is the last one, or leaves less work by its frame. -/
theorem workBytes_pullSend {s : Stream} (hr : s.InRange)
    (h : s.pullSend budget maxFresh = some (p, s')) (htaken : p.taken ≠ 0) :
    (s'.Spent (budget - p.taken) (Word64.sub maxFresh (s'.sendNextOffset - s.sendNextOffset)) ∧
        kStreamHeader + p.taken ≤ s.workBytes budget) ∨
      s'.InRange ∧
        kStreamHeader + p.taken + s'.workBytes (budget - p.taken) ≤ s.workBytes budget := by
  have hstep := pullSend_step h
  cases hlost : s.lostRanges with
  | nil =>
    obtain ⟨hle, hpos, hspent⟩ := spent_of_fresh hr hlost h htaken
    have hmoved : s'.sendNextOffset - s.sendNextOffset = p.taken := by
      cases hstep with
      | nothing | finOnly => exact absurd rfl htaken
      | lost _ hcons => rw [hlost] at hcons; cases hcons
      | fresh => exact Nat.add_sub_cancel_left ..
    rw [hmoved]
    refine .inl ⟨hspent, ?_⟩
    simp only [workBytes, pieces, waiting, hlost, if_pos (.inl hpos : 0 < s.available ∨ _),
      length_nil]
    omega
  | cons r rest =>
    cases hstep with
    | nothing | finOnly => exact absurd rfl htaken
    | fresh _ hnil => rw [hlost] at hnil; cases hnil
    | @lost r' rest' data _ hcons =>
      obtain ⟨rfl, rfl⟩ := List.cons.inj (hlost.symm.trans hcons)
      by_cases hwhole : r.2 ≤ budget
      · rw [Nat.min_eq_right hwhole, if_pos rfl]
        refine .inr ⟨hr, workBytes_lost hlost rfl rfl (fun hdue => ?_) hwhole⟩
        simp only [finDue, Bool.and_eq_true, Bool.not_eq_true', Bool.or_eq_false_iff] at hdue ⊢
        exact ⟨⟨hdue.1.1, hdue.1.2.1⟩, hdue.2⟩
      · rw [Nat.min_eq_left (by omega)]
        refine .inl ⟨.inl (Nat.sub_self budget), ?_⟩
        simp only [workBytes, pieces, waiting, hlost, length_cons, map_cons,
          sum_cons, Nat.mul_add]
        omega

end Stream

namespace Connection

theorem Pulled.nil_of_spent (h : Pulled k budget g s r frames) (hs : s.Spent budget g.budget) :
    frames = [] := by
  cases h with
  | done | fault | nothing => rfl
  | chunk h hp =>
    cases h.symm.trans (Stream.pullSend_of_spent hs)
    exact absurd ⟨rfl, rfl⟩ hp

def streamBytes (frames : List StreamFrame) : Nat :=
  (frames.map fun f => (stream f).wireBytes).sum

theorem streamBytes_append (frames frames' : List StreamFrame) :
    streamBytes (frames ++ frames') = streamBytes frames + streamBytes frames' := by
  simp [streamBytes]

/-- The loop of one stream makes no more than the stream's work. -/
theorem Pulled.streamBytes_le (h : Pulled k budget g s r frames) (hbudget : budget ≤ kStreamBudget)
    (hr : s.InRange) : streamBytes frames ≤ s.workBytes budget := by
  induction h with
  | done | fault | nothing => exact Nat.zero_le _
  | @chunk p s' budget r frames g s h hp hrest hlast ih =>
    have hstep := Stream.pullSend_step h
    have hdata : (p.frame k).data.length = p.taken := hstep.frame.2.2
    have hone : streamBytes [p.frame k] ≤ kStreamHeader + (p.frame k).data.length := by
      have := hstep.taken_le
      exact wireBytes_stream_le (Nat.lt_of_le_of_lt (m := kStreamBudget) (by omega) (by decide))
    rw [← singleton_append, streamBytes_append]
    by_cases htaken : p.taken = 0
    · have hpos := hstep.pieces_pos hp htaken
      have := Nat.mul_le_mul_left kStreamHeader hpos
      rw [hlast htaken, Stream.workBytes]
      show streamBytes [p.frame k] ≤ _
      omega
    · rcases Stream.workBytes_pullSend hr h htaken with ⟨hspent, hle⟩ | ⟨hr', hle⟩
      · rw [hrest.nil_of_spent hspent]
        exact (hone.trans (hdata.symm ▸ hle) :)
      · have hle' := ih (by omega) hr'
        omega

theorem Gathered.streamBytes_le (h : Gathered g l r frames) (hr : ∀ e ∈ l, e.2.InRange) :
    streamBytes frames ≤ (l.map fun e => e.2.workBytes kStreamBudget).sum := by
  induction h with
  | nil => exact le_rfl
  | cons hown _ ih =>
    obtain ⟨he, hl⟩ := forall_mem_cons.mp hr
    rw [streamBytes_append]
    exact Nat.add_le_add (hown.streamBytes_le le_rfl he) (ih hl)

/-! ## The packet -/

def queuedFrames (c : Connection) (level : EncryptionLevel) : List Frame :=
  (if (c.spaces level).acks.needsAck then [.ack ((c.spaces level).acks.buildAckFrame 0).1]
    else []) ++
  (c.cryptoPending level).map .crypto ++
  if level = .application then
    c.pendingPathResponses.map .pathResponse ++
      (if c.tls.state = .established && !c.sentHandshakeDone then [.handshakeDone] else []) ++
      c.controlFrames
  else []

/-- An upper bound on the payload of the next packet of a level: the pending close, or the frames
queued and the work of the streams. -/
def workBytes (c : Connection) (level : EncryptionLevel) : Nat :=
  match c.pendingClose with
  | some f => (connectionClose f).wireBytes
  | none =>
    ((c.queuedFrames level).map wireBytes).sum +
      if level = .application then c.streams.sum fun _ s => s.workBytes kStreamBudget else 0

section
variable (c : Connection) (level : EncryptionLevel)

theorem ack_collectAck : ((c.collectAck level).1.map Frame.ack).toList =
      if (c.spaces level).acks.needsAck then [.ack ((c.spaces level).acks.buildAckFrame 0).1]
      else [] := by
  unfold collectAck
  dsimp only
  split <;> rfl

theorem perm_collect : (c.collect level).1.frames.Perm
    (c.queuedFrames level ++ (c.collect level).1.streams.map stream) := by
  unfold collect
  dsimp only
  split
  next happ =>
    let d : Connection :=
      (collectStreams { c with cryptoPending := Function.update c.cryptoPending level [] }).2
    obtain ⟨_, hack⟩ := d.collectAck_eq level
    have hcontrol : (d.collectAck level).2.controlFrames = c.controlFrames := by rw [hack]; rfl
    have hpaths : (d.collectAck level).2.pendingPathResponses = c.pendingPathResponses := by
      rw [hack]; rfl
    have hdone : ((d.collectAck level).2.tls.state = .established &&
        !(d.collectAck level).2.sentHandshakeDone) =
          (c.tls.state = .established && !c.sentHandshakeDone) := by rw [hack]; rfl
    have hfirst := d.ack_collectAck level
    simp only [Outgoing.frames, queuedFrames, if_pos happ]
    rw [hfirst, hcontrol, hpaths, hdone]
    have hspaces : d.spaces = c.spaces := rfl
    rw [hspaces]
    simp only [append_assoc]
    refine (Perm.append_left _ (Perm.append_left _ perm_append_comm)).trans ?_
    simp only [append_assoc, Perm.refl]
  next happ =>
    simp only [Outgoing.frames, queuedFrames, if_neg happ]
    rw [ack_collectAck]
    simp

theorem wireBytes_collect : (((c.collect level).1.frames).map wireBytes).sum =
      ((c.queuedFrames level).map wireBytes).sum +
        streamBytes (c.collect level).1.streams := by
  rw [((c.perm_collect level).map wireBytes).sum_eq, map_append, sum_append, map_map]
  rfl

theorem gathered_collect (happ : level = .application) :
    ∃ r, Gathered ⟨c.connSendTotal, max c.connSendMaxData c.peerTp.initialMaxData - c.connSendTotal,
      [], false⟩ c.streams.entries r (c.collect level).1.streams := by
  obtain ⟨frames, hgathered⟩ := gathered ⟨c.connSendTotal,
    max c.connSendMaxData c.peerTp.initialMaxData - c.connSendTotal, [], false⟩ c.streams.entries
  have heq : (c.collect level).1.streams = frames := by
    unfold collect
    rw [if_pos happ]
    exact hgathered.out.1
  exact ⟨_, heq ▸ hgathered⟩

theorem streamBytes_collect (hr : ∀ e ∈ c.streams.entries, e.2.InRange) :
    streamBytes (c.collect level).1.streams ≤
      if level = .application then c.streams.sum fun _ s => s.workBytes kStreamBudget else 0 := by
  split
  next happ =>
    obtain ⟨_, hgathered⟩ := c.gathered_collect level happ
    exact hgathered.streamBytes_le hr
  next happ =>
    rw [c.collect_streams_of_ne happ]
    exact le_rfl

theorem packetLength_mono (h : n ≤ m) (hm : m < 2 ^ 14) :
    c.packetLength level n ≤ c.packetLength level m := by
  have hsize : (VarInt.encodedSize (4 + n + 16)).getD 0 ≤
      (VarInt.encodedSize (4 + m + 16)).getD 0 := by
    unfold VarInt.encodedSize
    repeat' split
    all_goals simp only [Option.getD_some, Option.getD_none]
    all_goals omega
  unfold packetLength
  cases level <;> dsimp only <;> omega

end

def WorkFits (c : Connection) (level : EncryptionLevel) : Prop :=
  (∀ e ∈ c.streams.entries, e.2.InRange) ∧
    c.packetLength level (c.workBytes level) ≤ kMaxDatagramEstimate
  deriving Decidable

theorem length_nextFrames_le {c : Connection} (hr : ∀ e ∈ c.streams.entries, e.2.InRange)
    (hframes : c.nextFrames level = some frames) (hpayload : encodeFrames frames = some payload) :
    payload.length ≤ c.workBytes level := by
  rw [length_encodeFrames hpayload]
  unfold nextFrames at hframes
  unfold workBytes
  split at hframes
  · cases hframes
  cases hp : c.pendingClose with
  | some f =>
    rw [hp] at hframes
    dsimp only at hframes
    split at hframes
    · cases hframes
      exact le_rfl
    · cases hframes
  | none =>
    rw [hp] at hframes
    dsimp only at hframes
    split at hframes
    · cases hframes
    cases hframes
    rw [wireBytes_collect]
    exact Nat.add_le_add_left (c.streamBytes_collect level hr) _

/-- Work that fits makes a datagram that fits. -/
theorem length_datagram_le {c : Connection} (h : c.WorkFits level)
    (hd : (c.buildAndSend env level).datagram = some d) : d.length ≤ kMaxDatagramEstimate := by
  obtain ⟨hr, hwork⟩ := h
  rw [datagram_buildAndSend] at hd
  obtain ⟨payload, hpayload, hpacket⟩ := Option.bind_eq_some_iff.mp hd
  obtain ⟨frames, hframes, hencode⟩ := Option.bind_eq_some_iff.mp hpayload
  have hle := length_nextFrames_le hr hframes hencode
  have hsmall : c.workBytes level < 2 ^ 14 := by
    have : c.workBytes level ≤ c.packetLength level (c.workBytes level) := by
      unfold packetLength
      cases level <;> dsimp only <;> omega
    exact (this.trans hwork).trans_lt (by decide)
  rw [length_nextPacket hpacket]
  exact (c.packetLength_mono level hle hsmall).trans hwork

end Connection

def Action.datagram? (env : Env) (c : Connection) : Action → Option Bytes
  | .send level => if c.faulted then none else (c.buildAndSend env level).datagram
  | _ => none

def Action.workFits (c : Connection) : Action → Bool
  | .send level => c.WorkFits level
  | _ => true

namespace Run

/-- In every run of a new connection whose sends all find work that fits into a datagram, every
datagram handed to `send_fn` has at most 1500 bytes. -/
theorem datagrams_le (env : Env) (clientDcid clientScid serverScid : Bytes)
    (tp : TransportParameters) (as : List Action)
    (h : ∀ x ∈ (performAll env ⟨.create env clientDcid clientScid serverScid tp, []⟩ as).trace,
      x.2.workFits x.1 = true) :
    ∀ x ∈ (performAll env ⟨.create env clientDcid clientScid serverScid tp, []⟩ as).trace,
      ∀ d, x.2.datagram? env x.1 = some d → d.length ≤ 1500 := by
  rintro ⟨c, a⟩ hx d hd
  have hfits := h _ hx
  cases a with
  | send level =>
    dsimp only [Action.datagram?] at hd
    split at hd
    · cases hd
    · exact Connection.length_datagram_le (of_decide_eq_true hfits) hd
  | _ => cases hd

def roomyEnv : Env :=
  .plainEstablished { initialMaxData := 10000, initialMaxStreamDataBidiLocal := 5000 }

/-- The whole budget of one stream leaves room for the rest. -/
theorem datagrams_le_one_stream :
    let r := performAll roomyEnv ⟨.create roomyEnv [] [] [] {}, []⟩
      [.markValidated, .advanceTls, .installKeys, .writeStream 0 (List.replicate 1100 0) false,
        .send .application]
    (∀ x ∈ r.trace, x.2.workFits x.1 = true) ∧
      ∃ x ∈ r.trace, ∃ d, x.2.datagram? roomyEnv x.1 = some d ∧ 1100 < d.length ∧
        d.length ≤ 1500 := by
  intro r
  have hfits : ∀ x ∈ r.trace, x.2.workFits x.1 = true := by decide +kernel
  refine ⟨hfits, ?_⟩
  have hsent : ∃ x ∈ r.trace, 1100 < ((x.2.datagram? roomyEnv x.1).map List.length).getD 0 := by
    decide +kernel
  obtain ⟨x, hx, hlen⟩ := hsent
  cases hd : x.2.datagram? roomyEnv x.1 with
  | none => rw [hd] at hlen; cases hlen
  | some d =>
    rw [hd] at hlen
    exact ⟨x, hx, d, hd, hlen, datagrams_le _ _ _ _ _ _ hfits x hx d hd⟩

/-- Two streams have a budget each, and one datagram takes both. -/
theorem datagram_two_streams :
    ∃ x ∈ (ofEvents roomyEnv (.create roomyEnv [] [] [] {})
        [.markPeerAddressValidated, .timer, .writeStream 0 (List.replicate 1100 0) false,
          .writeStream 4 (List.replicate 1100 0) false, .timer]).trace,
      1500 < ((x.2.datagram? roomyEnv x.1).map List.length).getD 0 := by
  decide +kernel

end Run

end Spaznet.Quic
