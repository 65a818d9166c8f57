import Spaznet.Quic.Connection.State

/-!
# Sending

`buildAndSend` makes at most one packet of a level: a pending CONNECTION_CLOSE, or everything that
is queued. It can throw, when a value does not fit in a variable-length integer or an Initial packet
cannot be sealed; what was taken from the queues by then stays taken.
-/

namespace Spaznet.Quic

open List Function

inductive SendOutcome where
  | sent
  | idle
  | threw
  deriving DecidableEq, Repr

structure SendResult where
  outcome : SendOutcome
  conn : Connection
  datagram : Option Bytes := none

structure Gather where
  /-- Fresh bytes sent so far (`conn_send_total_`). -/
  total : Nat
  /-- Fresh bytes the peer's connection limit still allows. -/
  budget : Nat
  frames : List StreamFrame := []
  faulted : Bool := false

structure Outgoing where
  ack : Option AckFrame := none
  crypto : List CryptoFrame := []
  streams : List StreamFrame := []
  pathResponses : List Bytes := []
  handshakeDone : Bool := false
  control : List Frame := []
  deriving DecidableEq, Repr

namespace Outgoing

def frames (o : Outgoing) : List Frame :=
  (o.ack.map Frame.ack).toList ++ o.crypto.map .crypto ++ o.streams.map .stream ++
    o.pathResponses.map .pathResponse ++ (if o.handshakeDone then [.handshakeDone] else []) ++
    o.control

def isEmpty (o : Outgoing) : Bool := o.frames.isEmpty

def ackEliciting (o : Outgoing) : Bool :=
  !o.crypto.isEmpty || !o.streams.isEmpty || o.handshakeDone || !o.pathResponses.isEmpty ||
    !o.control.isEmpty

end Outgoing

theorem encodeFrames_singleton (f : Frame) : encodeFrames [f] = encodeFrame f := by
  cases h : encodeFrame f <;> simp [encodeFrames, concatAll, h]

def Stream.Pull.frame (id : Nat) (p : Stream.Pull) : StreamFrame :=
  { streamId := id, offset := p.offset, hasLength := true, fin := p.fin, data := p.data }

def Gather.add (g : Gather) (id : Nat) (s s' : Stream) (p : Stream.Pull) : Gather :=
  { g with
    total := g.total + (s'.sendNextOffset - s.sendNextOffset)
    budget := Word64.sub g.budget (s'.sendNextOffset - s.sendNextOffset)
    frames := g.frames ++ [p.frame id] }

namespace Connection

/-- Bytes of one stream that go into a packet. -/
def kStreamBudget : Nat := 1100

/-- The loop over `pull_send` for one stream; `budget` falls with every chunk. -/
def pullLoop (id : Nat) : Nat → Nat → Gather → Stream → Gather × Stream
  | 0, _, g, s => (g, s)
  | fuel + 1, budget, g, s =>
    if budget = 0 then (g, s)
    else match s.pullSend budget g.budget with
      | none => ({ g with faulted := true }, s)
      | some (p, s') =>
        if p.taken = 0 ∧ !p.fin then (g, s')
        else
          let g := g.add id s s' p
          if p.taken = 0 then (g, s') else pullLoop id fuel (budget - p.taken) g s'

/-- Pull one stream, unless an earlier one ran into undefined behaviour. -/
def gatherStream (g : Gather) (id : Nat) (s : Stream) : Gather × Stream :=
  if g.faulted then (g, s) else pullLoop id kStreamBudget kStreamBudget g s

def collectStreams (c : Connection) : List StreamFrame × Connection :=
  let connSendMaxData := max c.connSendMaxData c.peerTp.initialMaxData
  let (g, streams) := c.streams.mapAccum gatherStream
    { total := c.connSendTotal, budget := connSendMaxData - c.connSendTotal }
  (g.frames, { c with
    connSendMaxData, streams, connSendTotal := g.total, faulted := c.faulted || g.faulted })

def controlFrames (c : Connection) : List Frame :=
  (if c.maxDataPending then [.maxData c.connRecvMaxData] else []) ++
    (if c.maxStreamsBidiPending then [.maxStreams true c.localMaxStreamsBidi] else []) ++
    (if c.maxStreamsUniPending then [.maxStreams false c.localMaxStreamsUni] else [])

def collectAck (c : Connection) (level : EncryptionLevel) : Option AckFrame × Connection :=
  let sp := c.spaces level
  if sp.acks.needsAck then
    let (ack, acks) := sp.acks.buildAckFrame 0
    (some ack, c.setSpace level { sp with acks })
  else (none, c)

def collect (c : Connection) (level : EncryptionLevel) : Outgoing × Connection :=
  let crypto := c.cryptoPending level
  let c := { c with cryptoPending := update c.cryptoPending level [] }
  if level = .application then
    let (streams, c) := c.collectStreams
    let (ack, c) := c.collectAck level
    ({ ack, crypto, streams
       handshakeDone := c.tls.state = .established && !c.sentHandshakeDone
       pathResponses := c.pendingPathResponses
       control := c.controlFrames },
      { c with
        pendingPathResponses := []
        maxDataPending := false
        maxStreamsBidiPending := false
        maxStreamsUniPending := false })
  else
    let (ack, c) := c.collectAck level
    ({ ack, crypto }, c)

/-- Build and protect a packet. The result is `none` where the code throws, and `some none` where
sealing fails. -/
def buildPacket (c : Connection) (env : Env) (level : EncryptionLevel) (payload : Bytes)
    (pn : Nat) : Option (Option Bytes) :=
  let sp := c.spaces level
  match level with
  | .initial =>
    (buildInitialPacket env.toCrypto sp.aead sp.sendKeys c.dcid c.scid [] payload pn).map some
  | .handshake =>
    (VarInt.encode (4 + payload.length + aeadTagLength sp.aead)).map fun length =>
      protectPacket env.toCrypto sp.aead sp.sendKeys 0x0f (sp.sendCtx.sealInplace env.toCrypto)
        (longHeaderBytes 2 c.dcid c.scid ++ length) payload pn
  | .earlyData | .application =>
    let phase : UInt8 := if sp.sendKeyPhase then 1 else 0
    some <| protectPacket env.toCrypto sp.aead sp.sendKeys 0x1f
      (sp.sendCtx.sealInplace env.toCrypto) (((0x40 : UInt8) ||| (phase <<< 2) ||| 3) :: c.dcid)
      payload pn

def takePn (c : Connection) (level : EncryptionLevel) : Connection :=
  let sp := c.spaces level
  c.setSpace level { sp with nextSendPn := sp.nextSendPn + 1 }

def countSent (c : Connection) (bytes : Nat) : Connection :=
  { c with sentBytesUnvalidated :=
      if c.peerAddressValidated then c.sentBytesUnvalidated else c.sentBytesUnvalidated + bytes }

/-- The highest level with send keys, where a CONNECTION_CLOSE goes. -/
def bestLevel (c : Connection) : EncryptionLevel :=
  if (c.spaces .application).sendKeysReady then .application
  else if (c.spaces .handshake).sendKeysReady then .handshake
  else .initial

/-- The pending close, in a packet of its own. -/
def sendClose (c : Connection) (env : Env) (level : EncryptionLevel) (f : ConnectionCloseFrame) :
    SendResult :=
  if level ≠ c.bestLevel then { outcome := .idle, conn := c }
  else match encodeFrame (.connectionClose f) with
    | none => { outcome := .threw, conn := c }
    | some payload =>
      let pn := (c.spaces level).nextSendPn
      match c.buildPacket env level payload pn with
      | none => { outcome := .threw, conn := c.takePn level }
      | some none => { outcome := .idle, conn := { c.takePn level with pendingClose := none } }
      | some (some pkt) =>
        { outcome := .idle
          conn := { (c.takePn level).countSent pkt.length with pendingClose := none }
          datagram := some pkt }

def kMaxDatagramEstimate : Nat := 1500

def amplificationBlocked (c : Connection) : Bool :=
  !c.peerAddressValidated && c.sentBytesUnvalidated + kMaxDatagramEstimate > 3 * c.recvBytesTotal

def recordSent (c : Connection) (env : Env) (level : EncryptionLevel) (o : Outgoing) (pn : Nat)
    (pkt : Bytes) : Connection :=
  let sentAt := c.now env
  let r : SentRecord :=
    { ackEliciting := o.ackEliciting, bytes := pkt.length, sentAt, crypto := o.crypto
      streams := o.streams }
  let sp := c.spaces level
  { c.ticked with
    sent := update c.sent level ((c.sent level).emplace pn r)
    congestion := if o.ackEliciting then c.congestion.onPacketSent pkt.length else c.congestion
    spaces := update c.spaces level <|
      if o.ackEliciting then
        { sp with lastAckElicitingSendTime := sentAt, anyAckElicitingSent := true }
      else sp
    sentHandshakeDone := c.sentHandshakeDone || o.handshakeDone }

/-- Encode, number, protect and send what was collected. -/
def sendOutgoing (c : Connection) (env : Env) (level : EncryptionLevel) (o : Outgoing) :
    SendResult :=
  match encodeFrames o.frames with
  | none => { outcome := .threw, conn := c }
  | some payload =>
    let pn := (c.spaces level).nextSendPn
    match c.buildPacket env level payload pn with
    | none => { outcome := .threw, conn := c.takePn level }
    | some none => { outcome := .idle, conn := c.takePn level }
    | some (some pkt) =>
      { outcome := .sent
        conn := ((c.takePn level).recordSent env level o pn pkt).countSent pkt.length
        datagram := some pkt }

def buildAndSend (c : Connection) (env : Env) (level : EncryptionLevel) : SendResult :=
  if !(c.spaces level).sendKeysReady || c.state = .draining || c.state = .closed then
    { outcome := .idle, conn := c }
  else match c.pendingClose with
    | some f => c.sendClose env level f
    | none =>
      if c.amplificationBlocked then { outcome := .idle, conn := c }
      else
        let (o, c) := c.collect level
        if c.faulted || o.isEmpty then { outcome := .idle, conn := c }
        else c.sendOutgoing env level o

/-! ## What a call comes to -/

/-- The pulls of one stream and the frames they make. -/
inductive Pulled (id : Nat) : Nat → Gather → Stream → Gather × Stream → List StreamFrame → Prop
  | done : Pulled id budget g s (g, s) []
  | fault (h : s.pullSend budget g.budget = none) :
    Pulled id budget g s ({ g with faulted := true }, s) []
  | nothing (h : s.pullSend budget g.budget = some (p, s')) (hp : p.taken = 0 ∧ !p.fin) :
    Pulled id budget g s (g, s') []
  | chunk (h : s.pullSend budget g.budget = some (p, s')) (hp : ¬ (p.taken = 0 ∧ !p.fin))
    (hrest : Pulled id (budget - p.taken) (g.add id s s' p) s' r frames)
    (hlast : p.taken = 0 → frames = []) : Pulled id budget g s r (p.frame id :: frames)

theorem pulled_pullLoop (id fuel budget : Nat) (g : Gather) (s : Stream) :
    ∃ frames, Pulled id budget g s (pullLoop id fuel budget g s) frames := by
  induction fuel generalizing budget g s with
  | zero => exact ⟨[], .done⟩
  | succ fuel ih =>
    unfold pullLoop
    split
    · exact ⟨[], .done⟩
    split
    next h => exact ⟨[], .fault h⟩
    next p s' h =>
      split
      next hp => exact ⟨[], .nothing h hp⟩
      next hp =>
        split
        · exact ⟨_, .chunk h hp .done fun _ => rfl⟩
        next htaken =>
          obtain ⟨frames, hrest⟩ := ih (budget - p.taken) (g.add id s s' p) s'
          exact ⟨_, .chunk h hp hrest fun hzero => absurd hzero htaken⟩

inductive Gathered : Gather → List (Nat × Stream) → Gather × List (Nat × Stream) →
    List StreamFrame → Prop
  | nil : Gathered g [] (g, []) []
  | cons (hown : Pulled e.1 kStreamBudget g e.2 (g', s') own)
    (hrest : Gathered g' l (g'', l') rest) :
    Gathered g (e :: l) (g'', (e.1, s') :: l') (own ++ rest)

theorem gathered (g : Gather) (l : List (Nat × Stream)) :
    ∃ frames, Gathered g l (OrdMap.mapAccumList gatherStream g l) frames := by
  induction l generalizing g with
  | nil => exact ⟨[], .nil⟩
  | cons e l ih =>
    have hown : ∃ own, Pulled e.1 kStreamBudget g e.2 (gatherStream g e.1 e.2) own := by
      unfold gatherStream
      split
      · exact ⟨[], .done⟩
      · exact pulled_pullLoop e.1 kStreamBudget kStreamBudget g e.2
    obtain ⟨own, hown⟩ := hown
    obtain ⟨rest, hrest⟩ := ih (gatherStream g e.1 e.2).1
    exact ⟨own ++ rest, .cons hown hrest⟩

theorem Pulled.out (h : Pulled k budget g s r frames) :
    r.1.frames = g.frames ++ frames ∧ ∀ f ∈ frames, f.streamId = k := by
  induction h with
  | done | fault | nothing =>
    exact ⟨(append_nil _).symm, fun _ hf => absurd hf not_mem_nil⟩
  | chunk _ _ _ _ ih =>
    exact ⟨ih.1.trans (append_assoc ..), forall_mem_cons.2 ⟨rfl, ih.2⟩⟩

theorem Gathered.out (h : Gathered g l r frames) :
    r.1.frames = g.frames ++ frames ∧ ∀ f ∈ frames, ∃ e ∈ l, f.streamId = e.1 := by
  induction h with
  | nil => exact ⟨(append_nil _).symm, fun _ hf => absurd hf not_mem_nil⟩
  | cons hown _ ih =>
    have hframes := ih.1.trans (congrArg (· ++ _) hown.out.1)
    refine ⟨hframes.trans (append_assoc ..), forall_mem_append.2 ⟨?_, ?_⟩⟩
    · exact fun f hf => ⟨_, mem_cons_self, hown.out.2 f hf⟩
    · intro f hf
      obtain ⟨e, he, heq⟩ := ih.2 f hf
      exact ⟨e, mem_cons_of_mem _ he, heq⟩

theorem Gathered.keys (h : Gathered g l r frames) : r.2.map (·.1) = l.map (·.1) := by
  induction h with
  | nil => rfl
  | cons _ _ ih => rw [map_cons, map_cons, ih]

section
variable (c : Connection) (level : EncryptionLevel)

theorem collectAck_eq : ∃ needsAck, (c.collectAck level).2 = { c with
      spaces := update c.spaces level { c.spaces level with
        acks := { (c.spaces level).acks with needsAck } } } := by
  unfold collectAck
  dsimp only
  split
  · obtain ⟨needsAck, h⟩ := (c.spaces level).acks.buildAckFrame_eq 0
    exact ⟨needsAck, by rw [h]; rfl⟩
  · exact ⟨_, by rw [update_eq_self]⟩

theorem collect_eq :
    ∃ needsAck crypto streams total limit faulted paths data bidi uni, (c.collect level).2 = { c with
      spaces := update c.spaces level { c.spaces level with
        acks := { (c.spaces level).acks with needsAck } }
      cryptoPending := crypto, streams := streams, connSendTotal := total, connSendMaxData := limit
      faulted := faulted, pendingPathResponses := paths, maxDataPending := data
      maxStreamsBidiPending := bidi, maxStreamsUniPending := uni } := by
  unfold collect
  dsimp only
  split
  · obtain ⟨needsAck, h⟩ := collectAck_eq (collectStreams
      { c with cryptoPending := update c.cryptoPending level [] }).2 level
    rw [h]
    exact ⟨needsAck, _, _, _, _, _, _, _, _, _, rfl⟩
  · obtain ⟨needsAck, h⟩ := collectAck_eq
      { c with cryptoPending := update c.cryptoPending level [] } level
    rw [h]
    exact ⟨needsAck, _, _, _, _, _, _, _, _, _, rfl⟩

end

/-- The frames of the next packet of a level: the pending close alone, or everything queued. -/
def nextFrames (c : Connection) (level : EncryptionLevel) : Option (List Frame) :=
  if !(c.spaces level).sendKeysReady || c.state = .draining || c.state = .closed then none
  else match c.pendingClose with
    | some f => if level = c.bestLevel then some [.connectionClose f] else none
    | none =>
      if c.amplificationBlocked || (c.collect level).2.faulted || (c.collect level).1.isEmpty then
        none
      else some (c.collect level).1.frames

def nextPayload (c : Connection) (level : EncryptionLevel) : Option Bytes :=
  (c.nextFrames level).bind encodeFrames

def nextPacket (c : Connection) (env : Env) (level : EncryptionLevel) (payload : Bytes) :
    Option Bytes :=
  (c.buildPacket env level payload (c.spaces level).nextSendPn).join

/-- The results that `build_and_send` can have. -/
inductive Sends (c : Connection) (env : Env) (level : EncryptionLevel) : SendResult → Prop
  | idle (hnone : c.nextPayload level = none) : Sends c env level { outcome, conn := c }
  /-- The close got a number, but not a packet. -/
  | closeLost (pending) (hclose : c.pendingClose ≠ none) (hsome : c.nextPayload level = some payload)
    (hpacket : c.nextPacket env level payload = none) :
    Sends c env level { outcome, conn := { c.takePn level with pendingClose := pending } }
  | close (hclose : c.pendingClose ≠ none) (hsome : c.nextPayload level = some payload)
    (hpacket : c.nextPacket env level payload = some pkt) :
    Sends c env level
      { outcome := .idle
        conn := { (c.takePn level).countSent pkt.length with pendingClose := none }
        datagram := some pkt }
  /-- What was queued is taken, but there is nothing to send or it cannot be encoded. -/
  | drained (hopen : c.pendingClose = none) (hnone : c.nextPayload level = none)
    (hskip : c.nextFrames level = none →
      ((c.collect level).2.faulted || (c.collect level).1.isEmpty) = true) :
    Sends c env level { outcome, conn := (c.collect level).2 }
  | lost (hopen : c.pendingClose = none)
    (hframes : c.nextFrames level = some (c.collect level).1.frames)
    (hsome : c.nextPayload level = some payload)
    (hpacket : (c.collect level).2.nextPacket env level payload = none) :
    Sends c env level { outcome, conn := (c.collect level).2.takePn level }
  | sent (hopen : c.pendingClose = none)
    (hframes : c.nextFrames level = some (c.collect level).1.frames)
    (hsome : c.nextPayload level = some payload)
    (hpacket : (c.collect level).2.nextPacket env level payload = some pkt) :
    Sends c env level
      { outcome := .sent
        conn := (((c.collect level).2.takePn level).recordSent env level (c.collect level).1
          ((c.collect level).2.spaces level).nextSendPn pkt).countSent pkt.length
        datagram := some pkt }

theorem sends_buildAndSend (c : Connection) (env : Env) (level : EncryptionLevel) :
    Sends c env level (c.buildAndSend env level) := by
  unfold buildAndSend
  split
  next hready => exact .idle (by rw [nextPayload, nextFrames, if_pos hready]; rfl)
  next hready =>
    have hnext : c.nextFrames level = _ := if_neg hready
    cases hclose : c.pendingClose with
    | some f =>
      rw [hclose] at hnext
      have hclose : c.pendingClose ≠ none := hclose ▸ nofun
      dsimp only at hnext ⊢
      unfold sendClose
      split
      next hbest => exact .idle (by rw [nextPayload, hnext, if_neg hbest]; rfl)
      next hbest =>
        have hpayload : c.nextPayload level = encodeFrame (.connectionClose f) := by
          rw [nextPayload, hnext, if_pos (not_not.mp hbest), Option.bind_some, encodeFrames_singleton]
        split
        next hnone => exact .idle (hpayload.trans hnone)
        next payload hsome =>
          dsimp only
          split
          next h => exact .closeLost c.pendingClose hclose (hpayload.trans hsome) (congrArg _ h)
          next h => exact .closeLost none hclose (hpayload.trans hsome) (congrArg _ h)
          next h => exact .close hclose (hpayload.trans hsome) (congrArg _ h)
    | none =>
      rw [hclose] at hnext
      dsimp only at hnext ⊢
      split
      next hblocked => exact .idle (by rw [nextPayload, hnext, hblocked]; rfl)
      next hblocked =>
        rw [Bool.eq_false_iff.mpr hblocked, Bool.false_or] at hnext
        split
        next hskip =>
          rw [if_pos hskip] at hnext
          exact .drained hclose (by rw [nextPayload, hnext]; rfl) fun _ => hskip
        next hskip =>
          rw [if_neg hskip] at hnext
          have hpayload : c.nextPayload level = encodeFrames (c.collect level).1.frames := by
            rw [nextPayload, hnext, Option.bind_some]
          unfold sendOutgoing
          split
          next hnone => exact .drained hclose (hpayload.trans hnone) (hnext ▸ nofun)
          next payload hsome =>
            dsimp only
            split
            next h => exact .lost hclose hnext (hpayload.trans hsome) (congrArg _ h)
            next h => exact .lost hclose hnext (hpayload.trans hsome) (congrArg _ h)
            next h => exact .sent hclose hnext (hpayload.trans hsome) (congrArg _ h)

@[elab_as_elim]
theorem sends_rule {motive : SendResult → Prop} (c : Connection) (env : Env)
    (level : EncryptionLevel) (h : ∀ res, Sends c env level res → motive res) :
    motive (c.buildAndSend env level) :=
  h _ (c.sends_buildAndSend env level)

end Connection

end Spaznet.Quic
