import Spaznet.Quic.Connection.Run
import Spaznet.Quic.Stream.Accounting

/-!
# What the actions leave alone

`forgetLoss`, `forgetRecv`, `forgetPto`, `forgetOutbound` and `forgetQuiet` blank out the members
that a family of functions may change; a function of the family then has the same image before and
after, and every other member follows by projection. Of the streams, `Stream.inbound` keeps what the peer
controls: the receive side and the send limit.
-/

namespace Spaznet.Quic

namespace Stream

/-- Blank out the send side, apart from its limit. -/
def inbound (s : Stream) : Stream :=
  { s with
    sendBuf := [], sendBufHead := 0, sendBufBaseOffset := 0, sendNextOffset := 0, sendHighWater := 0
    sendFinQueued := false, sendFinSent := false, sendFinAcked := false, ackedRanges := []
    lostRanges := [], sendState := .ready }

theorem inbound_write (s : Stream) (bytes : Bytes) (fin : Bool) :
    (s.write bytes fin).inbound = s.inbound := by
  unfold write
  split <;> rfl

/-- Blank out what an acknowledgement may change. -/
def forgetAcked (s : Stream) : Stream :=
  { s with
    sendBuf := [], sendBufHead := 0, sendBufBaseOffset := 0, ackedRanges := []
    sendFinAcked := false, sendState := .ready }

theorem forgetAcked_onAcked {s s' : Stream} (h : s.onAcked offset length = some s') :
    s'.forgetAcked = s.forgetAcked := by
  obtain rfl | ⟨buf, head, base, acked, fin, rfl⟩ := onAcked_eq h
  · rfl
  · unfold tryAdvanceSendStateAfterAck
    split <;> rfl

theorem inbound_onLost (s : Stream) (offset length : Nat) :
    (s.onLost offset length).inbound = s.inbound := by
  unfold onLost
  dsimp only
  split <;> split <;> rfl

end Stream

/-- `pull_send`, `on_acked` and `on_lost` leave `g` alone. -/
structure SendInvariant {γ : Type} (g : Stream → γ) : Prop where
  pullSend : s.pullSend maxBytes maxFresh = some (p, s') → g s' = g s
  onAcked : s.onAcked offset length = some s' → g s' = g s
  onLost : ∀ s offset length, g (Stream.onLost s offset length) = g s

theorem Stream.inbound_invariant : SendInvariant inbound :=
  ⟨fun h => by cases pullSend_step h <;> rfl,
    fun h => (congrArg inbound (forgetAcked_onAcked h) :), inbound_onLost⟩

/-- Actions that make or settle packets. -/
def Action.packets : Action → Bool
  | .send _ | .checkPto | .frame _ (.ack _) => true
  | _ => false

namespace Connection

/-- An update that always succeeds is a `modify`. -/
theorem updateStream_some (c : Connection) (streamId : Nat) (f : Stream → Stream) :
    (c.updateStream streamId fun s => some (f s)) =
      { c with streams := c.streams.modify streamId f } := by
  unfold updateStream
  split
  next h => rw [OrdMap.modify_of_find?_none h]
  next s h =>
    dsimp only
    rw [OrdMap.modify_of_find?_some h]

/-! ## Packets -/

/-- The part of the streams that the peer controls. -/
def inboundStreams (c : Connection) : OrdMap Stream := c.streams.map Stream.inbound

/-- Blank out what acknowledgement and loss handling may change. -/
def forgetLoss (c : Connection) : Connection :=
  { c with
    streams := c.inboundStreams
    sent := fun _ => ∅, cryptoPending := fun _ => [], congestion := {}, recovery := {}
    clockReads := 0, faulted := false }

/-- Blank out what ACK frames and probe timeouts may change. -/
def forgetPto (c : Connection) : Connection := { c.forgetLoss with spaces := fun _ => {} }

/-- Blank out what sending may change. -/
def forgetOutbound (c : Connection) : Connection :=
  { c.forgetPto with
    connSendMaxData := 0, connSendTotal := 0, pendingPathResponses := []
    maxDataPending := false, maxStreamsBidiPending := false, maxStreamsUniPending := false
    sentHandshakeDone := false, pendingClose := none, sentBytesUnvalidated := 0 }

section

variable {γ : Type} (g : Stream → γ) (c : Connection)

/-! The same with what `g` sees of the streams. -/

def lossFrame : Connection × OrdMap γ := ({ c.forgetLoss with streams := ∅ }, c.streams.map g)

def ptoFrame : Connection × OrdMap γ := ({ c.forgetPto with streams := ∅ }, c.streams.map g)

def outboundFrame : Connection × OrdMap γ :=
  ({ c.forgetOutbound with streams := ∅ }, c.streams.map g)

end

section

variable {γ : Type} {g : Stream → γ} {c c' : Connection}

theorem ptoFrame_of_lossFrame (h : lossFrame g c' = lossFrame g c) : ptoFrame g c' = ptoFrame g c :=
  congrArg (fun x => ({ x.1 with spaces := fun _ => {} }, x.2)) h

theorem outboundFrame_of_ptoFrame (h : ptoFrame g c' = ptoFrame g c) :
    outboundFrame g c' = outboundFrame g c :=
  congrArg (fun x => ({ x.1 with
    connSendMaxData := 0, connSendTotal := 0, pendingPathResponses := []
    maxDataPending := false, maxStreamsBidiPending := false, maxStreamsUniPending := false
    sentHandshakeDone := false, pendingClose := none, sentBytesUnvalidated := 0 }, x.2)) h

theorem lossFrame_updateStream (c : Connection) (streamId : Nat)
    (hf : ∀ s s', f s = some s' → g s' = g s) :
    lossFrame g (c.updateStream streamId f) = lossFrame g c := by
  unfold updateStream
  split
  · rfl
  next s hs =>
    split
    · rfl
    next s' hs' => exact Prod.ext rfl ((OrdMap.map_modify_eq_iff hs).2 (hf s s' hs'))

variable (hg : SendInvariant g) (c : Connection) (env : Env) (level : EncryptionLevel)

include hg

theorem lossFrame_loseEntry (e : Nat × SentRecord) :
    lossFrame g (loseEntry env level c e) = lossFrame g c := by
  have hfold : lossFrame g (e.2.streams.foldl streamLost c) = lossFrame g c :=
    Machine.foldl_frame (fun c sf => c.lossFrame_updateStream sf.streamId fun s _ h =>
      Option.some.inj h ▸ hg.onLost s _ _) c _
  unfold loseEntry declareLost
  split <;> exact hfold

theorem lossFrame_detectAndHandleLoss :
    lossFrame g (c.detectAndHandleLoss env level) = lossFrame g c := by
  unfold detectAndHandleLoss
  split
  · rfl
  · exact Machine.foldl_frame (fun c e => lossFrame_loseEntry hg c env level e) c.ticked _

theorem lossFrame_ackRange (interval : Nat × Nat) :
    lossFrame g (ackRange env level c interval) = lossFrame g c := by
  have hstreams (c : Connection) (frames : List StreamFrame) :
      lossFrame g (frames.foldl streamAcked c) = lossFrame g c :=
    Machine.foldl_frame (fun c sf =>
      c.lossFrame_updateStream sf.streamId fun _ _ h => hg.onAcked h) c _
  have hentry (c : Connection) (e : Nat × SentRecord) :
      lossFrame g (ackEntry env level c e) = lossFrame g c := hstreams c e.2.streams
  exact Machine.foldl_frame hentry c _

/-- Apart from the largest acknowledged number, an ACK frame is acknowledgement and loss handling
only. -/
theorem lossFrame_onAckFrame (f : AckFrame) : lossFrame g (c.onAckFrame env level f) =
    lossFrame g (c.noteLargestAcked level f.largestAcked) := by
  unfold onAckFrame
  split
  · rfl
  have hfold := Machine.foldl_frame (fun c i => lossFrame_ackRange hg c env level i)
    (c.noteLargestAcked level f.largestAcked) f.intervals
  rw [lossFrame_detectAndHandleLoss hg]
  split <;> exact hfold

theorem ptoFrame_onAckFrame (f : AckFrame) :
    ptoFrame g (c.onAckFrame env level f) = ptoFrame g c := by
  have hnote : ptoFrame g (c.noteLargestAcked level f.largestAcked) = ptoFrame g c := by
    unfold noteLargestAcked
    dsimp only
    split <;> rfl
  exact (ptoFrame_of_lossFrame (lossFrame_onAckFrame hg c env level f)).trans hnote

theorem ptoFrame_checkPto : ptoFrame g (c.checkPto env) = ptoFrame g c := by
  have hfire (c : Connection) (level : EncryptionLevel) :
      ptoFrame g (c.firePto env level) = ptoFrame g c :=
    (ptoFrame_of_lossFrame (Machine.foldl_frame (fun c e => lossFrame_loseEntry hg c env level e) c
      ((c.sent level).entries.filter (·.2.ackEliciting))) :)
  have hlevel (now : TimePoint) (pto : Duration) (x : Bool × Connection)
      (level : EncryptionLevel) : ptoFrame g (checkLevelPto env now pto x level).2 = ptoFrame g x.2 := by
    unfold checkLevelPto
    split
    · exact hfire x.2 level
    · rfl
  have hlevels := Machine.foldl_frame (p := fun x => ptoFrame g x.2)
    (hlevel (c.now env) (c.recovery.ptoTimeout (milliseconds c.peerTp.maxAckDelayMs)))
    (false, c.ticked) EncryptionLevel.sending
  unfold checkPto
  dsimp only
  split <;> exact hlevels

theorem pulled_frame (h : Pulled k budget x s r frames) : g r.2 = g s := by
  induction h with
  | done | fault => rfl
  | nothing h => exact hg.pullSend h
  | chunk h _ _ _ ih => exact ih.trans (hg.pullSend h)

theorem outboundFrame_collect : outboundFrame g (c.collect level).2 = outboundFrame g c := by
  have hack (c : Connection) : outboundFrame g (c.collectAck level).2 = outboundFrame g c := by
    unfold collectAck
    dsimp only
    split <;> rfl
  have hstreams (c : Connection) : outboundFrame g c.collectStreams.2 = outboundFrame g c := by
    refine Prod.ext rfl (OrdMap.map_mapAccum (fun x id s => ?_) _ _)
    unfold gatherStream
    split
    · rfl
    · obtain ⟨_, h⟩ := pulled_pullLoop id kStreamBudget kStreamBudget x s
      exact pulled_frame hg h
  unfold collect
  split
  · exact (hack _).trans (hstreams _)
  · exact hack _

theorem outboundFrame_buildAndSend :
    outboundFrame g (c.buildAndSend env level).conn = outboundFrame g c := by
  have hcollect := outboundFrame_collect hg c level
  have htake (d : Connection) : outboundFrame g (d.takePn level) = outboundFrame g d := rfl
  have hrecord (d : Connection) (o pn pkt) : outboundFrame g ((d.recordSent env level o pn
      pkt).countSent pkt.length) = outboundFrame g d := rfl
  refine c.sends_rule env level fun res hsends => ?_
  cases hsends with
  | idle | closeLost | close => rfl
  | drained => exact hcollect
  | lost => exact (htake _).trans hcollect
  | sent => exact ((hrecord ..).trans (htake _)).trans hcollect

theorem outboundFrame_act (ha : a.packets = true) :
    outboundFrame g (c.act env a) = outboundFrame g c := by
  cases a with
  | send level => exact outboundFrame_buildAndSend hg c env level
  | checkPto => exact outboundFrame_of_ptoFrame (ptoFrame_checkPto hg c env)
  | frame level f =>
    cases f with
    | ack f => exact outboundFrame_of_ptoFrame (ptoFrame_onAckFrame hg c env level f)
    | _ => cases ha
  | _ => cases ha

end

def withStreams (x : Connection × OrdMap Stream) : Connection := { x.1 with streams := x.2 }

section

open Quic.Stream (inbound_invariant)

variable (c : Connection) (env : Env) (level : EncryptionLevel)

theorem forgetLoss_loseEntry (e : Nat × SentRecord) :
    (loseEntry env level c e).forgetLoss = c.forgetLoss :=
  congrArg withStreams (lossFrame_loseEntry inbound_invariant c env level e)

theorem forgetLoss_onAckFrame (f : AckFrame) : (c.onAckFrame env level f).forgetLoss =
    (c.noteLargestAcked level f.largestAcked).forgetLoss :=
  congrArg withStreams (lossFrame_onAckFrame inbound_invariant c env level f)

theorem forgetPto_onAckFrame (f : AckFrame) :
    (c.onAckFrame env level f).forgetPto = c.forgetPto :=
  congrArg withStreams (ptoFrame_onAckFrame inbound_invariant c env level f)

theorem forgetOutbound_collect : (c.collect level).2.forgetOutbound = c.forgetOutbound :=
  congrArg withStreams (outboundFrame_collect inbound_invariant c level)

theorem forgetOutbound_buildAndSend :
    (c.buildAndSend env level).conn.forgetOutbound = c.forgetOutbound :=
  congrArg withStreams (outboundFrame_buildAndSend inbound_invariant c env level)

theorem forgetOutbound_act (h : a.packets = true) :
    (c.act env a).forgetOutbound = c.forgetOutbound :=
  congrArg withStreams (outboundFrame_act inbound_invariant c env h)

end

/-! ## STREAM and RESET_STREAM -/

/-- Blank out what a STREAM or RESET_STREAM frame may change. -/
def forgetRecv (c : Connection) : Connection :=
  { c with streams := ∅, connRecvTotal := 0, pendingClose := none, state := .handshaking }

theorem forgetRecv_ensureStream (c : Connection) (streamId : Nat) :
    (c.ensureStream streamId).2.forgetRecv = c.forgetRecv := by
  unfold ensureStream
  split <;> rfl

theorem forgetRecv_deliverTo (c : Connection) (d : StreamDelivery) :
    (c.deliverTo d).forgetRecv = c.forgetRecv := by
  have hensure := c.forgetRecv_ensureStream d.streamId
  unfold deliverTo
  dsimp only
  split
  · rfl
  split
  · rfl
  split
  · exact hensure
  · split <;> exact hensure

end Connection

/-! ## All actions -/

/-- Blank out what handling a frame may change. -/
def Frame.forget (c : Connection) : Frame → Connection
  | .crypto _ =>
    { c with spaces := fun _ => {}, tls := {}, state := .handshaking, pendingClose := none }
  | .stream _ | .resetStream _ => c.forgetRecv
  | .ack _ => c.forgetPto
  | .connectionClose _ => { c with state := .handshaking }
  | .pathChallenge _ => { c with pendingPathResponses := [] }
  | .maxData _ => { c with connSendMaxData := 0 }
  | .maxStreamData _ _ => { c with streams := ∅ }
  | .maxStreams _ _ => { c with peerMaxStreamsBidi := 0, peerMaxStreamsUni := 0 }
  | .dataBlocked _ => { c with maxDataPending := false }
  | .streamsBlocked _ _ => { c with maxStreamsBidiPending := false, maxStreamsUniPending := false }
  | _ => c

/-- Blank out what an action may change. -/
def Action.forget (c : Connection) : Action → Connection
  | .noteDatagram _ => { c with lastActivity := 0, clockReads := 0, recvBytesTotal := 0 }
  | .longPacket _ _ =>
    { c with spaces := fun _ => {}, peerAddressValidated := false, faulted := false }
  | .shortPacket _ | .received _ _ | .installKeys | .keyUpdate => { c with spaces := fun _ => {} }
  | .frameError | .close _ _ _ _ => { c with state := .handshaking, pendingClose := none }
  | .frame _ f => f.forget c
  | .advanceTls => { c with tls := {} }
  | .pullCrypto => { c with spaces := fun _ => {}, tls := {}, cryptoPending := fun _ => [] }
  | .send _ => c.forgetOutbound
  | .establish => { c with state := .handshaking }
  | .checkIdle => { c with state := .handshaking, clockReads := 0 }
  | .checkPto => c.forgetPto
  | .retire =>
    { c with
      streams := ∅, retiredRecvConsumed := 0, streamsBidiClosed := 0, streamsUniClosed := 0
      localMaxStreamsBidi := 0, localMaxStreamsUni := 0
      maxStreamsBidiPending := false, maxStreamsUniPending := false }
  | .refreshWindow => { c with connRecvConsumed := 0, connRecvMaxData := 0, maxDataPending := false }
  | .writeStream _ _ _ | .readStream _ => { c with streams := ∅ }
  | .markValidated => { c with peerAddressValidated := false }

namespace Connection

section
variable (c : Connection) (env : Env)

theorem forget_onFrame (level : EncryptionLevel) (f : Frame) :
    f.forget (c.onFrame env level f) = f.forget c := by
  cases f with
  | stream f => exact c.forgetRecv_deliverTo (streamDelivery f)
  | resetStream f => exact c.forgetRecv_deliverTo (resetDelivery f)
  | ack f => exact c.forgetPto_onAckFrame env level f
  | crypto f =>
    simp only [onFrame, onCryptoFrame]
    split <;> rfl
  | maxStreamData streamId maximum =>
    rw [onFrame, updateStream_some]
    rfl
  | pathChallenge | maxData | streamsBlocked => simp only [onFrame]; split <;> rfl
  | maxStreams =>
    simp only [onFrame]
    repeat' split
    all_goals rfl
  | _ => rfl

theorem forget_act (a : Action) : a.forget (c.act env a) = a.forget c := by
  have hlevel (c : Connection) (level : EncryptionLevel) :
      Action.pullCrypto.forget (c.pullLevelCrypto level) = Action.pullCrypto.forget c := by
    unfold pullLevelCrypto
    dsimp only
    split <;> rfl
  cases a with
  | frame level f => exact c.forget_onFrame env level f
  | longPacket | shortPacket => simp only [act]; split <;> rfl
  | pullCrypto =>
    simp only [act, pullCryptoFromTls, EncryptionLevel.sending, List.foldl_cons, List.foldl_nil,
      hlevel]
  | send level => exact c.forgetOutbound_buildAndSend env level
  | checkIdle =>
    simp only [act, checkIdleTimeout]
    repeat' split
    all_goals rfl
  | checkPto => exact congrArg withStreams (ptoFrame_checkPto Stream.inbound_invariant c env)
  | writeStream => simp only [act, writeStream, ensureStream]; split <;> rfl
  | readStream => simp only [act, readStream]; split <;> rfl
  | keyUpdate => simp only [act, initiateKeyUpdate]; split <;> rfl
  | _ => rfl

/-- **Frame rule.** An action leaves alone whatever does not depend on what it may change. -/
theorem act_frame (p : Connection → β) (h : ∀ c, p (a.forget c) = p c) : p (c.act env a) = p c := by
  rw [← h, forget_act, h]

end

/-- Blank out keys, TLS, the connection state, the clock, and the flags of control frames. -/
def forgetQuiet (c : Connection) : Connection :=
  { c with
    spaces := fun _ => {}, tls := {}, state := .handshaking, pendingClose := none, lastActivity := 0
    clockReads := 0, recvBytesTotal := 0, peerAddressValidated := false
    cryptoPending := fun _ => [], pendingPathResponses := [], maxDataPending := false
    maxStreamsBidiPending := false, maxStreamsUniPending := false, faulted := false }

end Connection

/-- Frames that touch neither streams, nor packets in flight, nor limits. -/
def Frame.quiet : Frame → Bool
  | .stream _ | .resetStream _ | .ack _ | .maxData _ | .maxStreamData _ _ | .maxStreams _ _ => false
  | _ => true

/-- Actions that touch neither streams, nor packets in flight, nor limits. -/
def Action.quiet : Action → Bool
  | .frame _ f => f.quiet
  | .send _ | .checkPto | .retire | .refreshWindow | .writeStream _ _ _ | .readStream _ => false
  | _ => true

namespace Connection

variable (c : Connection) (env : Env) (level : EncryptionLevel)

theorem forgetQuiet_act (h : a.quiet = true) : (c.act env a).forgetQuiet = c.forgetQuiet := by
  refine c.act_frame env forgetQuiet fun c => ?_
  cases a with
  | frame level f => cases f <;> first | rfl | cases h
  | _ => first | rfl | cases h

/-- What the constructor sets for good: connection ids and the local transport parameters. -/
def fixed (c : Connection) : Bytes × Bytes × TransportParameters := (c.dcid, c.scid, c.localTp)

/-- The limits on the peer's streams and the counts of those closed, for both directions. -/
def credit (c : Connection) : (Nat × Nat) × Nat × Nat :=
  ((c.localMaxStreamsBidi, c.localMaxStreamsUni), c.streamsBidiClosed, c.streamsUniClosed)

theorem credit_act (h : a ≠ .retire) : (c.act env a).credit = c.credit := by
  refine c.act_frame env credit fun c => ?_
  cases a with
  | frame level f => cases f <;> rfl
  | retire => exact (h rfl).elim
  | _ => rfl

theorem fixed_act (a : Action) : (c.act env a).fixed = c.fixed := by
  refine c.act_frame env fixed fun c => ?_
  cases a with
  | frame level f => cases f <;> rfl
  | _ => rfl

theorem fixed_perform (a : Action) : (c.perform env a).fixed = c.fixed :=
  c.perform_rule env a (fun _ => rfl) fun _ => c.fixed_act env a

end Connection

end Spaznet.Quic
