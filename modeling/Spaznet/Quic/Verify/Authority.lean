import Spaznet.Quic.Connection.Delivery
import Spaznet.Quic.Connection.Plain

/-!
# What packets outside 1-RTT can change

Initial keys can be derived by any observer, so streams and send limits should change by frames of
1-RTT packets only. The visitor of `deliver_frames` looks at the encryption level for PATH_CHALLENGE
alone. `Frame.Effective` says for each frame when it changes streams or limits, whatever the level
it came from.
-/

namespace Spaznet.Quic

open Connection Stream OrdMap

structure PeerView where
  streams : OrdMap Stream
  connSendMaxData : Nat
  peerMaxStreamsBidi : Nat
  peerMaxStreamsUni : Nat
  deriving DecidableEq

def Connection.peerView (c : Connection) : PeerView :=
  ⟨c.inboundStreams, c.connSendMaxData, c.peerMaxStreamsBidi, c.peerMaxStreamsUni⟩

namespace Stream

/-- Data the stream accepts tells it something new. -/
def Gains (s : Stream) (offset : Nat) (data : Bytes) (fin : Bool) : Prop :=
  ¬ (s.recvState = .resetRecvd ∨ s.recvState = .resetRead) ∧
    ((fin = true ∧ s.recvFinalSize ≠ some (Word64.add offset data.length)) ∨
      Word64.add offset data.length > s.recvHighWater ∨
      s.deliveredChunks offset data ≠ s.recvChunks ∨ s.nextRecvState ≠ s.recvState)

/-- A reset the stream accepts tells it something new. -/
def GainsReset (s : Stream) (finalSize appError : Nat) : Prop :=
  s.recvFinalSize ≠ some finalSize ∨ finalSize > s.recvHighWater ∨
    s.resetError ≠ some appError ∨ s.recvState ≠ .resetRecvd ∨ s.recvChunks ≠ []

theorem inbound_deliver_eq_iff {s : Stream} (h : (s.deliver offset data fin).1 = true) :
    (s.deliver offset data fin).2.inbound = s.inbound ↔ ¬ s.Gains offset data fin := by
  unfold deliver at h ⊢
  split
  next hreset => exact ⟨fun _ hg => hg.1 hreset, fun _ => rfl⟩
  next hreset =>
    dsimp only
    split
    next hrefuse => simp [hreset, hrefuse] at h
    next hrefuse =>
      constructor
      · rintro heq ⟨-, hnew⟩
        have hfinal := congrArg recvFinalSize heq
        have hhigh := congrArg recvHighWater heq
        have hchunks := congrArg recvChunks heq
        have hstate := congrArg recvState heq
        simp only [inbound] at hfinal hhigh hchunks hstate
        rcases hnew with ⟨rfl, hfin⟩ | hend | hput | hnext
        · exact hfin hfinal.symm
        · rw [if_pos hend] at hhigh
          omega
        · exact hput hchunks
        · rw [hfinal, hchunks] at hstate
          exact hnext hstate
      · intro hold
        have hold := not_or.1 fun hnew => hold ⟨hreset, hnew⟩
        obtain ⟨hfin, hold⟩ := hold
        obtain ⟨hend, hold⟩ := not_or.1 hold
        obtain ⟨hput, hnext⟩ := not_or.1 hold
        have hfinal : (if fin = true then some (Word64.add offset data.length)
            else s.recvFinalSize) = s.recvFinalSize := by
          split
          next ht => exact (not_not.1 fun hne => hfin ⟨ht, hne⟩).symm
          next => rfl
        rw [hfinal, if_neg hend, not_not.1 hput, not_not.1 hnext]

theorem inbound_resetRecvd_eq_iff {s : Stream} (h : (s.resetRecvd finalSize appError).1 = true) :
    (s.resetRecvd finalSize appError).2.inbound = s.inbound ↔
      ¬ s.GainsReset finalSize appError := by
  unfold resetRecvd at h ⊢
  unfold GainsReset
  split at h
  · cases h
  split at h
  · cases h
  next h₁ h₂ =>
    rw [if_neg h₁, if_neg h₂]
    simp only [inbound, mk.injEq, not_or, not_not, true_and, and_true]
    constructor
    · rintro ⟨hchunks, hhigh, hfinal, herror, hstate⟩
      exact ⟨hfinal.symm, by omega, herror.symm, hstate.symm, hchunks.symm⟩
    · rintro ⟨hfinal, hhigh, herror, hstate, hchunks⟩
      exact ⟨hchunks.symm, by omega, hfinal.symm, herror.symm, hstate.symm⟩

end Stream

/-- The frame changes the streams or the limits of the state it arrives in. -/
def Frame.Effective (c : Connection) : Frame → Prop
  | .stream f => c.admits (streamDelivery f) = true ∧ (c.findStream f.streamId = none ∨
      c.accepts (streamDelivery f) = true ∧ (c.streamOrNew f.streamId).Gains f.offset f.data f.fin)
  | .resetStream f => c.admits (resetDelivery f) = true ∧ (c.findStream f.streamId = none ∨
      c.accepts (resetDelivery f) = true ∧
        (c.streamOrNew f.streamId).GainsReset f.finalSize f.appError)
  | .maxData maximum => maximum > c.connSendMaxData
  | .maxStreamData streamId maximum =>
    ∃ s, c.findStream streamId = some s ∧ maximum > s.sendLimit
  | .maxStreams bidi maximum =>
    maximum > if bidi then c.peerMaxStreamsBidi else c.peerMaxStreamsUni
  | _ => False

namespace Connection

theorem peerView_of_inboundStreams {c c' : Connection} (h : c'.forgetRecv = c.forgetRecv) :
    c'.peerView = c.peerView ↔ c'.inboundStreams = c.inboundStreams := by
  have hdata : c'.connSendMaxData = c.connSendMaxData := (congrArg (·.connSendMaxData) h :)
  have hbidi : c'.peerMaxStreamsBidi = c.peerMaxStreamsBidi :=
    (congrArg (·.peerMaxStreamsBidi) h :)
  have huni : c'.peerMaxStreamsUni = c.peerMaxStreamsUni := (congrArg (·.peerMaxStreamsUni) h :)
  simp only [peerView, hdata, hbidi, huni, PeerView.mk.injEq, and_true]

theorem peerView_of_forgetQuiet {c c' : Connection} (h : c'.forgetQuiet = c.forgetQuiet) :
    c'.peerView = c.peerView := (congrArg peerView h :)

section
variable (c : Connection)

/-- A STREAM or RESET_STREAM frame is without effect exactly if it is not admitted, or if its stream
is open and learns nothing. -/
theorem peerView_deliverTo_eq_iff (d : StreamDelivery) :
    (c.deliverTo d).peerView = c.peerView ↔ ¬ (c.admits d = true ∧
      (c.findStream d.streamId = none ∨ c.accepts d = true ∧
        (d.apply (c.streamOrNew d.streamId)).2.inbound ≠
          (c.streamOrNew d.streamId).inbound)) := by
  rw [peerView_of_inboundStreams (c.forgetRecv_deliverTo d)]
  have hfind := c.findStream_deliverTo d
  by_cases hadm : c.admits d = true
  swap
  · have hsame : (c.deliverTo d).streams = c.streams :=
      ext_find? fun id => (hfind id).trans (if_neg fun h => hadm h.2)
    exact ⟨fun _ h => hadm h.1, fun _ => congrArg (map inbound) hsame⟩
  simp only [hadm, and_true] at hfind
  cases hold : c.findStream d.streamId with
  | none =>
    refine ⟨fun heq => ?_, fun h => absurd ⟨hadm, .inl rfl⟩ h⟩
    have hid := congrArg (find? · d.streamId) heq
    have hnew := hfind d.streamId
    rw [findStream] at hold hnew
    simp [inboundStreams, find?_map, hold, hnew] at hid
  | some s =>
    have hs : c.streamOrNew d.streamId = s := by rw [streamOrNew, hold, Option.getD_some]
    have hstreams : (c.deliverTo d).streams = c.streams.modify d.streamId fun _ =>
        c.streamAfter d := by
      refine ext_find? fun id => ?_
      rw [find?_modify]
      refine (hfind id).trans ?_
      split
      next hid => rw [hid, show c.streams.find? d.streamId = some s from hold, Option.map_some]
      next => rfl
    have hinbound : (c.deliverTo d).inboundStreams = c.inboundStreams ↔
        (c.streamAfter d).inbound = s.inbound := by
      rw [inboundStreams, hstreams]
      exact map_modify_eq_iff hold
    rw [hinbound, streamAfter, hs]
    by_cases hacc : c.accepts d = true <;> simp [hadm, hacc]

theorem peerView_onAckFrame (env : Env) (level : EncryptionLevel)
    (f : AckFrame) : (c.onAckFrame env level f).peerView = c.peerView := by
  have hack := congrArg (fun c : Connection => PeerView.mk c.streams c.connSendMaxData
    c.peerMaxStreamsBidi c.peerMaxStreamsUni) (c.forgetPto_onAckFrame env level f)
  exact hack

theorem peerView_setSendLimit (streamId maximum : Nat) :
    (c.updateStream streamId fun s => some (s.setSendLimit maximum)).peerView = c.peerView ↔
      ¬ ∃ s, c.findStream streamId = some s ∧ maximum > s.sendLimit := by
  rw [updateStream_some]
  simp only [peerView, inboundStreams, PeerView.mk.injEq]
  cases h : c.findStream streamId with
  | none => simp [modify_of_find?_none h]
  | some s =>
    rw [← modify_of_find?_some h, map_modify_eq_iff h]
    unfold setSendLimit
    split
    next hlt =>
      have hne : maximum ≠ s.sendLimit := Nat.ne_of_gt hlt
      simp [inbound, hlt, hne]
    next hle => simp [hle]

/-- **Effect of a frame.** Streams and limits stay as they are exactly if the frame is not
effective; the encryption level plays no part. -/
theorem peerView_onFrame_eq_iff (env : Env) (level : EncryptionLevel)
    (f : Frame) : (c.onFrame env level f).peerView = c.peerView ↔ ¬ f.Effective c := by
  have hquiet (hq : f.quiet = true) (hn : ¬ f.Effective c) :
      (c.onFrame env level f).peerView = c.peerView ↔ ¬ f.Effective c :=
    ⟨fun _ => hn, fun _ => peerView_of_forgetQuiet (c.forgetQuiet_act env (a := .frame level f) hq)⟩
  cases f with
  | stream f =>
    refine (c.peerView_deliverTo_eq_iff (streamDelivery f)).trans (not_congr ?_)
    refine and_congr_right fun _ => or_congr_right (and_congr_right fun hacc => ?_)
    have hok : ((c.streamOrNew f.streamId).deliver f.offset f.data f.fin).1 = true :=
      (Bool.and_eq_true _ _ ▸ hacc).2
    exact not_iff_comm.1 (inbound_deliver_eq_iff hok).symm
  | resetStream f =>
    refine (c.peerView_deliverTo_eq_iff (resetDelivery f)).trans (not_congr ?_)
    refine and_congr_right fun _ => or_congr_right (and_congr_right fun hacc => ?_)
    have hok : ((c.streamOrNew f.streamId).resetRecvd f.finalSize f.appError).1 = true :=
      (Bool.and_eq_true _ _ ▸ hacc).2
    exact not_iff_comm.1 (inbound_resetRecvd_eq_iff hok).symm
  | ack f => exact ⟨fun _ => id, fun _ => c.peerView_onAckFrame env level f⟩
  | maxStreamData streamId maximum => exact c.peerView_setSendLimit streamId maximum
  | maxData maximum =>
    simp only [onFrame, Frame.Effective]
    split
    next hlt => simp [peerView, hlt, Nat.ne_of_gt hlt]
    next hle => simp [hle]
  | maxStreams bidi maximum =>
    simp only [onFrame, Frame.Effective]
    cases bidi with
    | true =>
      simp only [if_true]
      split
      next hlt => simp [peerView, hlt, Nat.ne_of_gt hlt]
      next hle => simp [hle]
    | false =>
      simp only [Bool.false_eq_true, if_false]
      split
      next hlt => simp [peerView, hlt, Nat.ne_of_gt hlt]
      next hle => simp [hle]
  | _ => exact hquiet rfl id

end

theorem level_openLongBody (h : (openLongBody env sp l pkt pnOffset pnLen n length cur).1 =
      .opened level pn payload cursor) : l = level := by
  unfold openLongBody at h
  dsimp only at h
  split at h
  · cases h
  split at h
  · cases h
  split at h
  · cases h
  · exact (LongResult.opened.inj h).1

theorem level_openCarved
    (h : (openCarved env sp l pkt pnOffset length cur).1 = .opened level pn payload cursor) :
    l = level := by
  unfold openCarved at h
  dsimp only at h
  split at h
  · cases h
  split at h
  · cases h
  · exact level_openLongBody h

/-- A long-header packet is never opened with the 1-RTT keys. -/
theorem level_openLongPacket {c : Connection}
    (h : (c.openLongPacket env datagram off).result = .opened level pn payload cursor) :
    level ≠ .application := by
  unfold openLongPacket at h
  split at h
  · cases h
  next hdr cur _ =>
    split at h
    · cases h
    next l hl =>
      split at h
      · cases h
      rw [← level_openCarved h]
      rintro rfl
      cases htype : hdr.type <;> simp [htype, LongType.level] at hl

end Connection

namespace Run

/-- The action applies a frame of a 1-RTT packet that the run has opened. -/
def OneRttFrame (env : Env) (r : Run) (a : Action) : Prop :=
  ∃ y ∈ r.trace, ∃ dg p frames f, y.2 = .shortPacket dg ∧ y.1.openShortPacket env dg = some p ∧
    parseFrames p.payload = some frames ∧ f ∈ frames ∧ a = .frame .application f

theorem OneRttFrame.mono (h : OneRttFrame env r a) (hr : Reaches env r r') :
    OneRttFrame env r' a := by
  obtain ⟨y, hy, h⟩ := h
  exact ⟨y, hr.mem_trace hy, h⟩

/-- Frames are applied at the 1-RTT level only if they come from opened 1-RTT packets. -/
def Provenance (env : Env) (r : Run) : Prop :=
  ∀ x ∈ r.trace, ∀ f, x.2 = .frame .application f → OneRttFrame env r x.2

theorem Provenance.perform (h : Provenance env r)
    (ha : ∀ f, a ≠ .frame .application f) : Provenance env (r.perform env a) := by
  intro x hx f hf
  rcases List.mem_cons.1 hx with rfl | hx
  · exact absurd hf (ha f)
  · exact (h x hx f hf).mono (reaches_perform _ _)

theorem Provenance.deliverFrames (h : Provenance env r)
    (hf : ∀ frames f, parseFrames payload = some frames → f ∈ frames → level = .application →
      OneRttFrame env r (.frame .application f)) :
    Provenance env (r.deliverFrames env level payload) := by
  obtain ⟨as, has, heq⟩ := r.deliverFrames_eq env level payload
  rw [heq]
  intro x hx f ha
  rcases mem_or_mem_of_mem_trace as hx with hx | hx
  · exact (h x hx f ha).mono (reaches_performAll _ _)
  rcases has x.2 hx with hx | ⟨frames, f', hparse, hf', hx⟩
  · rw [hx] at ha
    cases ha
  · rw [hx] at ha ⊢
    cases ha
    exact (hf frames f hparse hf' rfl).mono (reaches_performAll _ _)

theorem Provenance.processLongPacket {r : Run} (h : Provenance env r) (datagram : Bytes)
    (off : Nat) : Provenance env (r.processLongPacket env datagram off).2 := by
  have hopen : Provenance env (r.perform env (.longPacket datagram off)) :=
    h.perform fun _ => nofun
  unfold Run.processLongPacket
  cases hresult : (r.conn.openLongPacket env datagram off).result with
  | abandon | fault | skip => exact hopen
  | opened level pn payload cursor =>
    have hlevel := level_openLongPacket hresult
    exact (hopen.deliverFrames fun _ _ _ _ heq => absurd heq hlevel).perform fun _ => nofun

theorem Provenance.processShortPacket (h : Provenance env r) (dg : Bytes) :
    Provenance env (r.processShortPacket env dg) := by
  have hopen : Provenance env (r.perform env (.shortPacket dg)) := h.perform fun _ => nofun
  unfold Run.processShortPacket
  cases hresult : r.conn.openShortPacket env dg with
  | none => exact hopen
  | some p =>
    refine (hopen.deliverFrames fun frames f hparse hf _ => ?_).perform fun _ => nofun
    exact ⟨_, List.mem_cons_self, dg, p, frames, f, rfl, hresult, hparse, hf, rfl⟩

theorem provenance_ofEvents (env : Env) (c : Connection) (events : List Event) :
    Provenance env (ofEvents env c events) := by
  have hempty : Provenance env ⟨c, []⟩ := fun _ hx => absurd hx List.not_mem_nil
  refine invariant_ofEvents (fun _ datagram off h => h.processLongPacket datagram off)
    (fun _ dg h => h.processShortPacket dg) (fun r a ha h => h.perform fun f heq => ?_) c events
    hempty
  rw [heq] at ha
  cases ha

/-- Opening a packet changes neither streams nor limits, nor does a payload that cannot be parsed. -/
theorem peerView_perform_packet {c : Connection} (h : a.ofPacket = true)
    (hf : ∀ level f, a ≠ .frame level f) : (c.perform env a).peerView = c.peerView := by
  have hq : a.quiet = true := by
    cases a with
    | frame level f => exact absurd rfl (hf level f)
    | send | checkPto | retire | refreshWindow | writeStream | readStream => cases h
    | _ => rfl
  exact c.perform_rule env a (fun _ => rfl) fun _ => peerView_of_forgetQuiet (c.forgetQuiet_act env hq)

/-- **Authority of packets.** In every run, packets change streams and limits through frames of
1-RTT packets only, exactly if no effective frame ever arrives in a packet of another level. -/
theorem authority_iff (env : Env) (c : Connection) (events : List Event) :
    (∀ x ∈ (ofEvents env c events).trace, x.2.ofPacket = true →
      (x.1.perform env x.2).peerView ≠ x.1.peerView →
        OneRttFrame env (ofEvents env c events) x.2) ↔
    ∀ x ∈ (ofEvents env c events).trace, ∀ level f, x.2 = .frame level f →
      level ≠ .application → x.1.faulted = true ∨ ¬ f.Effective x.1 := by
  refine forall₂_congr fun x hx => ⟨?_, ?_⟩
  · rintro honly level f ha hlevel
    refine or_iff_not_imp_left.2 fun hfault heff => ?_
    have hperform : x.1.perform env x.2 = x.1.onFrame env level f := by
      rw [Connection.perform, if_neg hfault, ha]
      rfl
    have hchange : (x.1.perform env x.2).peerView ≠ x.1.peerView := fun heq =>
      (x.1.peerView_onFrame_eq_iff env level f).1 (hperform ▸ heq) heff
    obtain ⟨-, -, -, -, -, f', -, -, -, -, hf'⟩ := honly (by rw [ha]; rfl) hchange
    rw [ha] at hf'
    cases hf'
    exact hlevel rfl
  · intro hquiet hpacket hchange
    by_contra hno
    refine hchange ?_
    by_cases hframe : ∃ level f, x.2 = .frame level f
    · obtain ⟨level, f, ha⟩ := hframe
      have hlevel : level ≠ .application := fun heq =>
        hno (provenance_ofEvents env c events x hx f (heq ▸ ha))
      unfold Connection.perform
      split
      · rfl
      next hfault =>
        rw [ha]
        exact (x.1.peerView_onFrame_eq_iff env level f).2
          ((hquiet level f ha hlevel).resolve_left hfault)
    · exact peerView_perform_packet hpacket fun level f ha => hframe ⟨level, f, ha⟩

/-- A new connection receives an Initial packet with a STREAM frame. -/
def initialStreamRun : Run := ofEvents Env.plain
  (.create Env.plain [] [] [] { initialMaxData := 10, initialMaxStreamsBidi := 1,
                                initialMaxStreamDataBidiRemote := 10 })
  [.datagram ([0xc0, 0, 0, 0, 1, 0, 0, 0, 20, 0, 0x08, 0, 0x61] ++ List.replicate 16 0)]

/-- The frame opens stream 0 and delivers a byte on it. -/
theorem initial_packet_opens_stream : ¬ ∀ x ∈ initialStreamRun.trace, x.2.ofPacket = true →
    (x.1.perform Env.plain x.2).peerView ≠ x.1.peerView →
      OneRttFrame Env.plain initialStreamRun x.2 := by
  intro h
  obtain ⟨x, hx, ha, hchange⟩ : ∃ x ∈ initialStreamRun.trace,
      x.2 = .frame .initial (.stream { data := [0x61] }) ∧
        (x.1.perform Env.plain x.2).peerView ≠ x.1.peerView := by decide +kernel
  obtain ⟨-, -, -, -, -, f, -, -, -, -, hf⟩ := h x hx (by rw [ha]; rfl) hchange
  rw [ha] at hf
  cases hf

end Run

end Spaznet.Quic
