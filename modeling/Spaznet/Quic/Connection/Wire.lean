import Spaznet.Quic.Connection.Footprint

/-!
# What goes on the wire

The frames, the payload and the size of the packet that a call of `build_and_send` makes, in terms
of the state before the call.
-/

namespace Spaznet.Quic

open List Option

def Frame.stream? : Frame → Option StreamFrame
  | .stream f => some f
  | _ => none

namespace Connection

variable (c : Connection)

/-- The size of a packet with a payload of `n` bytes: header, packet number, payload and tag. -/
def packetLength (c : Connection) (level : EncryptionLevel) (n : Nat) : Nat :=
  match level with
  | .initial =>
    7 + c.dcid.length + c.scid.length + 1 + (VarInt.encodedSize (4 + n + 16)).getD 0 + 4 + n + 16
  | .handshake =>
    7 + c.dcid.length + c.scid.length + (VarInt.encodedSize (4 + n + 16)).getD 0 + 4 + n + 16
  | .earlyData | .application => 1 + c.dcid.length + 4 + n + 16

theorem length_nextPacket {c : Connection} (h : c.nextPacket env level payload = some pkt) :
    pkt.length = c.packetLength level payload.length := by
  have h := join_eq_some_iff.1 h
  cases level with
  | initial =>
    obtain ⟨pkt', hbuild, heq⟩ := map_eq_some_iff.1 h
    cases heq
    obtain ⟨tokenLen, length, htoken, hlength, hpkt⟩ := length_buildInitialPacket hbuild
    have htoken := VarInt.encodedSize_encode htoken
    have hlength := VarInt.encodedSize_encode hlength
    rw [hpkt, packetLength, hlength, getD_some]
    simp only [length_nil]
    have : tokenLen.length = 1 := (Option.some.inj htoken).symm
    omega
  | handshake =>
    obtain ⟨length, hlength, hpkt⟩ := map_eq_some_iff.1 h
    have hlength := VarInt.encodedSize_encode hlength
    rw [length_protectPacket CipherCtx.length_sealInplace hpkt, packetLength, ← aeadTagLength,
      hlength]
    simp [longHeaderBytes]
    omega
  | earlyData | application =>
    rw [length_protectPacket CipherCtx.length_sealInplace (Option.some.inj h), packetLength]
    simp
    omega

theorem spaces_collect (level : EncryptionLevel) :
    ∃ acks, (c.collect level).2.spaces level = { c.spaces level with acks } := by
  obtain ⟨_, _, _, _, _, _, _, _, _, _, h⟩ := c.collect_eq level
  exact ⟨_, (congrFun (congrArg (·.spaces) h) level).trans (Function.update_self ..)⟩

theorem nextPacket_collect (env : Env) (level : EncryptionLevel) (payload : Bytes) :
    (c.collect level).2.nextPacket env level payload = c.nextPacket env level payload := by
  obtain ⟨acks, hspace⟩ := c.spaces_collect level
  have hdcid : (c.collect level).2.dcid = c.dcid :=
    (congrArg (·.dcid) (c.forgetOutbound_collect level) :)
  have hscid : (c.collect level).2.scid = c.scid :=
    (congrArg (·.scid) (c.forgetOutbound_collect level) :)
  unfold nextPacket buildPacket
  rw [hspace, hdcid, hscid]

/-- The datagram handed to `send_fn`, from the state before the call. -/
theorem datagram_buildAndSend (env : Env) (level : EncryptionLevel) :
    (c.buildAndSend env level).datagram =
      ((c.nextFrames level).bind encodeFrames).bind (c.nextPacket env level) := by
  have hcollect := c.nextPacket_collect env level
  have hsends := c.sends_buildAndSend env level
  show _ = (c.nextPayload level).bind _
  generalize c.buildAndSend env level = res at hsends ⊢
  cases hsends with
  | idle hnone | drained _ hnone => rw [hnone, bind_none]
  | closeLost _ _ hsome hpacket | close _ hsome hpacket =>
    rw [hsome, bind_some, hpacket]
  | lost _ _ hsome hpacket | sent _ _ hsome hpacket =>
    rw [hsome, bind_some, ← hcollect, hpacket]

/-! ## STREAM frames -/

theorem control_collect {c : Connection} (h : f ∈ (c.collect level).1.control) :
    (∃ n, f = .maxData n) ∨ ∃ bidi n, f = .maxStreams bidi n := by
  have hcontrol (d : Connection) (h : f ∈ d.controlFrames) :
      (∃ n, f = .maxData n) ∨ ∃ bidi n, f = .maxStreams bidi n := by
    rcases mem_append.1 h with h | h
    · rcases mem_append.1 h with h | h <;> split at h <;> simp_all
    · split at h <;> simp_all
  unfold collect at h
  split at h
  · exact hcontrol _ h
  · cases h

theorem collect_streams_of_ne (h : level ≠ .application) : (c.collect level).1.streams = [] := by
  unfold collect
  rw [if_neg h]

/-- A packet has the pending close alone, or everything queued. -/
theorem nextFrames_cases {c : Connection} (h : c.nextFrames level = some frames) :
    c.pendingClose = none ∧ frames = (c.collect level).1.frames ∨
      level = c.bestLevel ∧ ∃ f, c.pendingClose = some f ∧ frames = [.connectionClose f] := by
  unfold nextFrames at h
  split at h
  · cases h
  cases hp : c.pendingClose with
  | some f =>
    rw [hp] at h
    dsimp only at h
    split at h
    next hbest =>
      cases h
      exact .inr ⟨hbest, f, rfl, rfl⟩
    · cases h
  | none =>
    rw [hp] at h
    dsimp only at h
    split at h
    · cases h
    · cases h
      exact .inl ⟨rfl, rfl⟩

theorem stream_mem_nextFrames {c : Connection} (h : c.nextFrames level = some frames)
    (sf : StreamFrame) : Frame.stream sf ∈ frames ↔
      c.pendingClose = none ∧ sf ∈ (c.collect level).1.streams := by
  obtain ⟨hopen, rfl⟩ | ⟨-, f, hclose, rfl⟩ := nextFrames_cases h
  · have hcontrol : Frame.stream sf ∉ (c.collect level).1.control := by
      intro h
      simpa using control_collect h
    simp [Outgoing.frames, hcontrol, hopen]
  · simp [hclose]

/-- The STREAM frames of the packet that `build_and_send` hands out, if it hands one out. -/
def streamsOut (c : Connection) (env : Env) (level : EncryptionLevel) : List StreamFrame :=
  if (c.buildAndSend env level).datagram.isSome then
    ((c.nextFrames level).getD []).filterMap Frame.stream?
  else []

theorem mem_filterMap_stream? {frames : List Frame} :
    sf ∈ frames.filterMap Frame.stream? ↔ Frame.stream sf ∈ frames := by
  rw [mem_filterMap]
  constructor
  · rintro ⟨f, hf, heq⟩
    cases f <;> cases heq
    exact hf
  · intro hf
    exact ⟨_, hf, rfl⟩

theorem mem_streamsOut {c : Connection} :
    sf ∈ c.streamsOut env level ↔
      (c.pendingClose = none ∧ (c.buildAndSend env level).datagram.isSome = true) ∧
        sf ∈ (c.collect level).1.streams := by
  unfold streamsOut
  split
  next hsome =>
    rw [datagram_buildAndSend] at hsome
    cases hframes : c.nextFrames level with
    | none =>
      rw [hframes] at hsome
      cases hsome
    | some frames =>
      rw [getD_some, mem_filterMap_stream?, stream_mem_nextFrames hframes]
      simp only [and_true, datagram_buildAndSend, hsome]
  next hnone =>
    simp [hnone]

end Connection

end Spaznet.Quic
