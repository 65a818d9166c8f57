import Spaznet.Quic.Connection.Ledger
import Spaznet.Quic.Connection.StreamStep

/-!
# Books along a run

Sending and the remaining actions keep the books of a connection; `Books.act` puts all actions
together.
-/

namespace Spaznet.Quic

open List Function OrdMap

namespace Connection

section
variable {J : SendHistory → List StreamFrame → Stream → Prop} {W : Stream → Bytes → Bool → Prop}
  {h : Nat → SendHistory} {rest : List StreamFrame} {c : Connection} {level : EncryptionLevel}
  (rules : SendRules J W)
include rules

/-! ## Sending -/

/-- The loop of one stream: its frames are outstanding afterwards, and no chunk is out of bounds. -/
theorem Pulled.books (h : Pulled k budget g s r frames) (hJ : J hist own s) :
    r.1.faulted = g.faulted ∧ J hist (frames ++ own) r.2 := by
  induction h generalizing own with
  | done => exact ⟨rfl, hJ⟩
  | @fault budget g s h =>
    obtain ⟨p, s', hpull, -⟩ := rules.pullSend hJ budget g.budget k
    cases h.symm.trans hpull
  | @nothing _ _ budget g s h hp =>
    obtain ⟨p, s', hpull, hJ'⟩ := rules.pullSend hJ budget g.budget k
    cases h.symm.trans hpull
    rw [Stream.Pull.frames, if_pos hp] at hJ'
    exact ⟨rfl, hJ'⟩
  | @chunk _ _ budget _ _ g s h hp _ _ ih =>
    obtain ⟨p, s', hpull, hJ'⟩ := rules.pullSend hJ budget g.budget k
    cases h.symm.trans hpull
    rw [Stream.Pull.frames, if_neg hp] at hJ'
    obtain ⟨hfault, hrest⟩ := ih hJ'
    exact ⟨hfault, rules.perm hrest perm_middle⟩

theorem Gathered.books (hgather : Gathered g l r frames) (hl : l.Pairwise (·.1 < ·.1))
    (hJ : ∀ e ∈ l, J (h e.1) (framesOf e.1 own) e.2) :
    r.1.faulted = g.faulted ∧ ∀ e ∈ r.2, J (h e.1) (framesOf e.1 (frames ++ own)) e.2 := by
  induction hgather with
  | nil => exact ⟨rfl, fun _ he => absurd he not_mem_nil⟩
  | @cons e g g' s' frames l g'' l' frames' hown hrest ih =>
    obtain ⟨hhead, htail⟩ := pairwise_cons.1 hl
    obtain ⟨hJ, hJs⟩ := forall_mem_cons.1 hJ
    have hids := hown.out.2
    obtain ⟨hfault, hfirst⟩ := Pulled.books rules hown hJ
    obtain ⟨hfault', hrest'⟩ := ih htail hJs
    -- the frames of each stream are its own alone
    refine ⟨hfault'.trans hfault, fun e' he' => ?_⟩
    rw [append_assoc, framesOf_append, framesOf_append]
    rcases mem_cons.1 he' with rfl | he'
    · have hnone : framesOf e.1 frames' = [] := framesOf_eq_nil fun sf hsf => by
        obtain ⟨e', he', heq⟩ := hrest.out.2 sf hsf
        have := hhead e' he'
        omega
      rw [framesOf_eq_self hids, hnone]
      exact hfirst
    · have hkey : e'.1 ∈ l.map (·.1) := hrest.keys ▸ mem_map_of_mem he'
      obtain ⟨e'', he'', heq⟩ := mem_map.1 hkey
      have hnone : framesOf e'.1 frames = [] := framesOf_eq_nil fun sf hsf => by
        have hlt := hhead e'' he''
        have hid := hids sf hsf
        omega
      rw [hnone, ← framesOf_append]
      exact hrest' e' he'

variable {out : List StreamFrame}

theorem Books.collectStreams (hb : Books J h out c) :
    Books J h (c.collectStreams.1 ++ out) c.collectStreams.2 ∧
      c.collectStreams.2.faulted = c.faulted := by
  let g : Gather := { total := c.connSendTotal
                      budget := max c.connSendMaxData c.peerTp.initialMaxData - c.connSendTotal }
  have hlive : ∀ e ∈ c.streams.entries, J (h e.1) (framesOf e.1 out) e.2 := fun e he => by
    have hfind : c.findStream e.1 = some e.2 := mem_entries.1 he
    exact streamOrNew_of_findStream hfind ▸ hb e.1
  obtain ⟨frames, hgathered⟩ := gathered g c.streams.entries
  obtain ⟨hfault, hJ⟩ := Gathered.books rules hgathered c.streams.sorted hlive
  have hfst : c.collectStreams.1 = frames := hgathered.out.1
  have hfaulted : c.collectStreams.2.faulted = c.faulted := by
    show (c.faulted || (mapAccumList gatherStream g c.streams.entries).1.faulted) = _
    rw [hfault, Bool.or_false]
  refine ⟨fun id => ?_, hfaulted⟩
  rw [hfst]
  cases hs : c.collectStreams.2.findStream id with
  | some s =>
    rw [streamOrNew_of_findStream hs]
    exact hJ (id, s) (mem_entries.2 hs)
  | none =>
    have hold : ∀ e ∈ c.streams.entries, e.1 ≠ id := fun e he heq => by
      have hkey : id ∈ (mapAccumList gatherStream g c.streams.entries).2.map (·.1) := by
        rw [keys_mapAccumList]
        exact mem_map.2 ⟨e, he, heq⟩
      obtain ⟨⟨k, s⟩, hmem, rfl⟩ := mem_map.1 hkey
      exact find?_eq_none.1 hs s hmem
    have hold' : c.findStream id = none := lookupList_eq_none.2 hold
    have hnone : framesOf id frames = [] := framesOf_eq_nil fun sf hsf => by
      obtain ⟨e, he, heq⟩ := hgathered.out.2 sf hsf
      exact heq ▸ hold e he
    rw [framesOf_append, hnone]
    exact rules.congr (hb id) ((blank_streamOrNew hs).trans (blank_streamOrNew hold').symm)

/-- Collecting a level turns what the streams hand out into outstanding frames. -/
theorem Books.collect (hb : Books J h out c) (level : EncryptionLevel) :
    Books J h ((c.collect level).1.streams ++ out) (c.collect level).2 ∧
      (c.collect level).2.faulted = c.faulted := by
  unfold Connection.collect
  dsimp only
  have htaken : Books J h out
      { c with cryptoPending := update c.cryptoPending level [] } :=
    hb.congr rules (outbound_streamOrNew rfl)
  split
  · obtain ⟨hcollect, hfault⟩ := htaken.collectStreams rules
    obtain ⟨_, hack⟩ := collectAck_eq (Connection.collectStreams
      { c with cryptoPending := update c.cryptoPending level [] }).2 level
    rw [hack]
    exact ⟨hcollect.congr rules (outbound_streamOrNew rfl), hfault⟩
  · obtain ⟨_, hack⟩ := collectAck_eq
      { c with cryptoPending := update c.cryptoPending level [] } level
    rw [hack]
    exact ⟨htaken.congr rules (outbound_streamOrNew rfl), rfl⟩

theorem Books.record (hb : Books J h (r.streams ++ (flight c.sent ++ rest)) c)
    (hpn : (c.sent level).find? pn = none)
    (hsent : c'.sent = update c.sent level ((c.sent level).emplace pn r))
    (hsame : ∀ id, (c'.streamOrNew id).outbound = (c.streamOrNew id).outbound) :
    Books J h (flight c'.sent ++ rest) c' := by
  have hrecord := (flight_emplace hpn r).append_right rest
  rw [← hsent, append_assoc] at hrecord
  exact (hb.perm rules hrecord.symm).congr rules hsame

/-- **Sending.** The frames of a packet that goes out are recorded; those of a packet that cannot be
made are orphaned. -/
theorem Books.buildAndSend (hb : Books J h (flight c.sent ++ rest) c) (hf : c.faulted = false)
    (hpn : (c.sent level).find? (c.nextPn level) = none) (env : Env) :
    ∃ rest', (rest' = rest ∨ rest' = (c.collect level).1.streams ++ rest ∧
        c.nextFrames level ≠ none ∧ (c.buildAndSend env level).datagram = none) ∧
      Books J h (flight (c.buildAndSend env level).conn.sent ++ rest')
        (c.buildAndSend env level).conn ∧
      (c.buildAndSend env level).conn.faulted = false := by
  obtain ⟨hcollect, hfault⟩ := hb.collect rules level
  obtain ⟨hsent, hcores⟩ := c.collect_frame level
  have hfault := hfault.trans hf
  rw [← hsent] at hcollect hpn
  rw [← nextPn_of_cores hcores] at hpn
  -- the frames of a packet that does not come about are never acknowledged or lost
  have horphan : ((c.collect level).1.streams ++ (flight (c.collect level).2.sent ++ rest)).Perm
      (flight (c.collect level).2.sent ++ ((c.collect level).1.streams ++ rest)) := by
    rw [← append_assoc, ← append_assoc]
    exact perm_append_comm.append_right rest
  have hfailed := hcollect.perm rules horphan
  refine c.sends_rule env level fun res hsends => ?_
  cases hsends with
  | idle => exact ⟨rest, .inl rfl, hb, hf⟩
  | closeLost | close => exact ⟨rest, .inl rfl, hb.congr rules (outbound_streamOrNew rfl), hf⟩
  | drained _ _ hskip =>
    cases hframes : c.nextFrames level with
    | none =>
      have hempty := hskip hframes
      rw [hfault, Bool.false_or] at hempty
      rw [streams_of_isEmpty hempty] at hcollect
      exact ⟨rest, .inl rfl, hcollect, hfault⟩
    | some => exact ⟨_, .inr ⟨rfl, nofun, rfl⟩, hfailed, hfault⟩
  | lost _ hframes =>
    exact ⟨_, .inr ⟨rfl, hframes ▸ nofun, rfl⟩, hfailed.congr rules (outbound_streamOrNew rfl),
      hfault⟩
  | sent =>
    exact ⟨rest, .inl rfl, hcollect.record rules hpn rfl (outbound_streamOrNew rfl), hfault⟩

/-! ## The other actions -/

theorem Books.writeStream (hb : Books J h out c)
    (hw : W (c.streamOrNew streamId) data fin) :
    Books J (update h streamId ((h streamId).write (c.streamOrNew streamId) data fin)) out
      (c.writeStream streamId data fin) := by
  have hfind := c.findStream_ensureStream streamId streamId
  rw [if_pos rfl] at hfind
  intro id
  unfold Connection.writeStream
  rw [streamOrNew_setStream hfind, ensureStream_fst]
  by_cases hid : id = streamId
  · rw [hid, if_pos rfl, update_self]
    exact rules.write (hb streamId) hw
  rw [if_neg hid, update_of_ne hid]
  have hsame := c.findStream_ensureStream streamId id
  rw [if_neg hid] at hsame
  exact rules.congr (hb id) (outbound_of_findStream hsame)

omit rules in
/-- `retire_closed_streams` erases the stream. -/
def retires (c : Connection) (id : Nat) : Bool := (c.findStream id).any (·.terminal id)

theorem Books.retireClosedStreams (hb : Books J h out c)
    (hdone : ∀ e ∈ c.closedStreams, e.2.sendDone = true ∨ e.2.sendState = .ready) :
    Books J (fun id => if c.retires id then {} else h id) out c.retireClosedStreams := by
  intro id
  dsimp only
  have hfind : c.retireClosedStreams.findStream id =
      (c.findStream id).filter fun s => !s.terminal id := find?_filter _ _ _
  cases hs : c.findStream id with
  | none =>
    rw [hs] at hfind
    have hretires : c.retires id = false := by rw [retires, hs]; rfl
    rw [hretires]
    exact rules.congr (hb id) ((blank_streamOrNew hfind).trans (blank_streamOrNew hs).symm)
  | some s =>
    rw [hs] at hfind
    have hretires : c.retires id = s.terminal id := by rw [retires, hs]; rfl
    have hJ := hb id
    rw [streamOrNew_of_findStream hs] at hJ
    cases ht : s.terminal id with
    | true =>
      rw [Option.filter_some_neg (by simp [ht])] at hfind
      rw [hretires, ht]
      have hclosed : (id, s) ∈ c.closedStreams :=
        mem_filter.2 ⟨mem_entries.2 hs, ht⟩
      exact rules.retire hJ (hdone (id, s) hclosed) (blank_streamOrNew hfind)
    | false =>
      rw [Option.filter_some_pos (by simp [ht])] at hfind
      rw [hretires, ht, streamOrNew_of_findStream hfind]
      exact hJ

end

end Connection

/-- Actions that touch neither the send sides of streams nor packets in flight. -/
def Action.inert : Action → Bool
  | .writeStream _ _ _ | .retire | .send _ | .checkPto | .frame _ (.ack _) => false
  | _ => true

theorem Action.inert_of_packets {a : Action} (h : a.packets = true) : a.inert = false := by
  cases a with
  | frame level f => cases f <;> first | rfl | cases h
  | _ => first | rfl | cases h

namespace Connection

theorem outbound_act (c : Connection) (env : Env) {a : Action} (h : a.inert = true) :
    (∀ id, ((c.act env a).streamOrNew id).outbound = (c.streamOrNew id).outbound) ∧
      (c.act env a).sent = c.sent := by
  constructor
  · intro id
    have hstep := c.streamStep_act env a id
    generalize ho : (c.act env a).findStream id = o at hstep
    cases hstep with
    | same => exact outbound_of_findStream ho
    | delivered hid =>
      subst hid
      rw [streamOrNew_of_findStream ho]
      exact Stream.outbound_of_forgetReceived (c.forgetReceived_streamAfter_stream _)
    | reset hid =>
      subst hid
      rw [streamOrNew_of_findStream ho]
      exact Stream.outbound_of_forgetReceived (c.forgetReceived_streamAfter_reset _)
    | limited hs =>
      rw [streamOrNew_of_findStream ho, streamOrNew_of_findStream hs]
      unfold Stream.setSendLimit
      split <;> rfl
    | read hs =>
      rw [streamOrNew_of_findStream ho, streamOrNew_of_findStream hs]
      exact Stream.outbound_of_forgetReceived (Stream.forgetReceived_readContiguous _)
    | written | retired => cases h
    | sendSide ha => cases h.symm.trans (Action.inert_of_packets ha)
  · refine (c.sent_congestion_act env (fun level heq => ?_) ?_ fun heq => ?_).1
    · rw [heq] at h
      cases h
    · cases a with
      | frame level f => cases f <;> first | rfl | cases h
      | _ => rfl
    · rw [heq] at h
      cases h

/-- What an action adds to the histories of the streams. -/
def HistoryStep (c : Connection) (h h' : Nat → SendHistory) : Action → Prop
  | .writeStream streamId data fin =>
    h' = update h streamId ((h streamId).write (c.streamOrNew streamId) data fin)
  | .retire => h' = fun id => if c.retires id then {} else h id
  | .frame level (.ack f) => ∃ frames, Carried c level f.intervals frames ∧ h' = ackAll h frames
  | _ => h' = h

/-- A stream that is erased has sent everything, or never had anything to send. -/
def RetiresDone (c : Connection) (a : Action) : Prop :=
  a = .retire → ∀ e ∈ c.closedStreams, e.2.sendDone = true ∨ e.2.sendState = .ready
  deriving Decidable

/-- A 1-RTT packet for which something was collected is built and sealed. -/
def SealsPackets (env : Env) (c : Connection) (a : Action) : Prop :=
  a = .send .application → c.nextFrames .application ≠ none →
    (c.buildAndSend env .application).datagram ≠ none
  deriving Decidable

/-- The outcome of an action on books with histories `h` and orphaned frames `rest`. -/
structure BookStep (J : SendHistory → List StreamFrame → Stream → Prop) (env : Env)
    (c : Connection) (a : Action) (h : Nat → SendHistory) (rest : List StreamFrame)
    (h' : Nat → SendHistory) (rest' : List StreamFrame) : Prop where
  history : HistoryStep c h h' a
  /-- Frames are orphaned only where a 1-RTT packet cannot be made. -/
  orphans : SealsPackets env c a → rest' = rest
  books : Books J h' (flight (c.act env a).sent ++ rest') (c.act env a)
  sentLe : (∀ level, a ≠ .send level) → SentLe (c.act env a) c
  fresh : PnFresh (c.act env a)
  /-- Sending, acknowledging and losing stay inside the send buffers. -/
  defined : a.inert = false → (c.act env a).faulted = false

theorem BookStep.of_not_send (hs : ∀ level, a ≠ .send level) (hhist : HistoryStep c h h' a)
    (hbooks : Books J h' (flight (c.act env a).sent ++ rest) (c.act env a))
    (hle : SentLe (c.act env a) c) (hfresh : PnFresh c)
    (hdef : a.inert = false → (c.act env a).faulted = false) : BookStep J env c a h rest h' rest :=
  ⟨hhist, fun _ => rfl, hbooks, fun _ => hle, hfresh.of_sentLe hle (c.nextPn_act env hs), hdef⟩

theorem SentLe.of_eq (h : c'.sent = c.sent) : SentLe c' c := by
  intro level pn r hr
  rwa [h] at hr

/-- **Books along a run.** Every action keeps the books. -/
theorem Books.act (rules : SendRules J W)
    (hb : Books J h (flight c.sent ++ rest) c) (hfresh : PnFresh c) (hf : c.faulted = false)
    (env : Env) (a : Action) (hw : ∀ streamId data fin, a = .writeStream streamId data fin →
      W (c.streamOrNew streamId) data fin) (hr : RetiresDone c a) :
    ∃ h' rest', BookStep J env c a h rest h' rest' := by
  cases hi : a.inert with
  | true =>
    obtain ⟨hstreams, hsent⟩ := c.outbound_act env hi
    have hbooks : Books J h (flight (c.act env a).sent ++ rest) (c.act env a) := by
      rw [hsent]
      exact hb.congr rules hstreams
    have hs (level : EncryptionLevel) : a ≠ .send level := by
      rintro rfl
      cases hi
    refine ⟨h, rest, .of_not_send hs ?_ hbooks (.of_eq hsent) hfresh fun hn => ?_⟩
    · cases a with
      | writeStream | retire => cases hi
      | frame level f =>
        cases f with
        | ack => cases hi
        | _ => rfl
      | _ => rfl
    · cases hi.symm.trans hn
  | false =>
    cases a with
    | writeStream streamId data fin =>
      have hensure := c.forgetRecv_ensureStream streamId
      have hsent : (c.act env (.writeStream streamId data fin)).sent = c.sent :=
        congrArg (fun c => c.sent) hensure
      refine ⟨_, rest, .of_not_send (fun _ => nofun) rfl ?_ (.of_eq hsent) hfresh fun _ => ?_⟩
      · rw [hsent]
        exact hb.writeStream rules (hw streamId data fin rfl)
      · exact (congrArg (fun c => c.faulted) hensure).trans hf
    | retire =>
      exact ⟨_, rest, .of_not_send (fun _ => nofun) rfl (hb.retireClosedStreams rules (hr rfl))
        (.refl c) hfresh fun _ => hf⟩
    | checkPto =>
      obtain ⟨hbooks, hfault, hle⟩ := hb.checkPto rules env
      exact ⟨h, rest, .of_not_send (fun _ => nofun) rfl hbooks hle hfresh fun _ => hfault.trans hf⟩
    | frame level f =>
      cases f with
      | ack f =>
        obtain ⟨frames, hcarried, hbooks, hfault, hle⟩ := hb.onAckFrame rules env level f
        exact ⟨_, rest, .of_not_send (fun _ => nofun) ⟨frames, hcarried, rfl⟩ hbooks hle hfresh
          fun _ => hfault.trans hf⟩
      | _ => cases hi
    | send level =>
      obtain ⟨rest', hrest, hbooks, hfault⟩ :=
        hb.buildAndSend rules hf (hfresh.find?_nextPn level) env
      refine ⟨h, rest', rfl, fun hseal => ?_, hbooks, fun hs => absurd rfl (hs level),
        hfresh.buildAndSend env level, fun _ => hfault⟩
      rcases hrest with hrest | ⟨hrest, hframes, hnone⟩
      · exact hrest
      by_cases hlevel : level = .application
      · subst hlevel
        exact absurd hnone (hseal rfl hframes)
      · rw [hrest, c.collect_streams_of_ne hlevel]
        rfl
    | _ => cases hi

end Connection

end Spaznet.Quic
