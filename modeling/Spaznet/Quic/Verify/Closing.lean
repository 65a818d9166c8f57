import Spaznet.Quic.Verify.Authority
import Spaznet.Quic.Verify.DatagramSize

/-!
# Closing

After `initiate_close` a connection should send its CONNECTION_CLOSE once and then be quiet. The
code makes sure of the first part; but once the close is out, Closing is a state like any other for
`build_and_send` and for the frame handlers. A run in which nothing is queued by then and no frame
has an effect, `LeftAlone`, is quiet after all.
-/

namespace Spaznet.Quic

open Connection List VarInt

namespace Connection

variable (c : Connection)

/-- The connection state and the close that is pending. -/
def closeStatus (c : Connection) : ConnState × Option ConnectionCloseFrame :=
  (c.state, c.pendingClose)

def closeOwed (c : Connection) : Bool := c.state == .closing && c.pendingClose.isSome

/-- What an action that neither sends nor receives a close can do to the status. -/
inductive CloseStep (s : ConnState × Option ConnectionCloseFrame) :
    ConnState × Option ConnectionCloseFrame → Prop where
  | same : CloseStep s s
  | initiate (h : s.1 = .handshaking ∨ s.1 = .established) (f : ConnectionCloseFrame) :
    CloseStep s (.closing, some f)
  | elsewhere (h : s.1 = .handshaking ∨ s.1 = .established) (h' : s'.1 ≠ .closing) :
    CloseStep s s'

theorem closeBegun_eq_false {c : Connection} :
    c.closeBegun = false ↔ c.state = .handshaking ∨ c.state = .established := by
  unfold closeBegun
  cases c.state <;> simp

theorem closeStep_initiateClose (errorCode : Nat) (application : Bool) (reason : Bytes)
    (frameType : Nat) :
    CloseStep c.closeStatus (c.initiateClose errorCode application reason frameType).closeStatus :=
  by
  unfold initiateClose closeStatus
  cases h : c.closeBegun with
  | true => exact .same
  | false => exact .initiate (closeBegun_eq_false.1 h) _

theorem closeStatus_ensureStream (streamId : Nat) :
    (c.ensureStream streamId).2.closeStatus = c.closeStatus := by
  unfold ensureStream
  split <;> rfl

theorem closeStep_deliverTo (d : StreamDelivery) :
    CloseStep c.closeStatus (c.deliverTo d).closeStatus := by
  obtain ⟨code, reason, frameType, heq⟩ := c.deliverTo_eq d
  have hensure := c.closeStatus_ensureStream d.streamId
  rw [heq]
  split
  · rw [← hensure]
    exact .same
  split
  · rw [← hensure]
    exact closeStep_initiateClose _ _ _ _ _
  · exact closeStep_initiateClose _ _ _ _ _

theorem closeStep_onFrame (env : Env) (level : EncryptionLevel) (f : Frame)
    (hf : ∀ g, f ≠ .connectionClose g) :
    CloseStep c.closeStatus (c.onFrame env level f).closeStatus := by
  have hsame (h : ∀ c, (f.forget c).closeStatus = c.closeStatus) :
      CloseStep c.closeStatus (c.onFrame env level f).closeStatus :=
    (c.act_frame env closeStatus (a := .frame level f) h) ▸ .same
  cases f with
  | stream | resetStream => exact c.closeStep_deliverTo _
  | crypto f =>
    simp only [onFrame, onCryptoFrame]
    split
    · exact closeStep_initiateClose _ _ _ _ _
    · exact .same
  | connectionClose g => exact absurd rfl (hf g)
  | _ => exact hsame fun _ => rfl

theorem closeStep_checkIdleTimeout (env : Env) :
    CloseStep c.closeStatus (c.checkIdleTimeout env).closeStatus := by
  unfold checkIdleTimeout
  split
  · exact .same
  next h =>
    have hopen : c.closeBegun = false := by
      cases hb : c.closeBegun with
      | true => simp [hb] at h
      | false => rfl
    split
    · exact .elsewhere (closeBegun_eq_false.1 hopen) nofun
    · exact .same

theorem closeStep_establish : CloseStep c.closeStatus c.establish.closeStatus := by
  unfold establish closeStatus
  split
  next h => exact .elsewhere (.inl h.2) nofun
  next => exact .same

/-- Apart from sending and from the peer's CONNECTION_CLOSE, an action leaves the status alone,
initiates the close, or moves to another state than Closing. -/
theorem closeStep_act (env : Env) (a : Action) (hs : ∀ level, a ≠ .send level)
    (hf : ∀ level g, a ≠ .frame level (.connectionClose g)) :
    CloseStep c.closeStatus (c.act env a).closeStatus := by
  have hsame (h : ∀ c, (a.forget c).closeStatus = c.closeStatus) :
      CloseStep c.closeStatus (c.act env a).closeStatus := (c.act_frame env closeStatus h) ▸ .same
  cases a with
  | send level => exact absurd rfl (hs level)
  | frame level f => exact c.closeStep_onFrame env level f fun g hg => hf level g (hg ▸ rfl)
  | frameError | close => exact closeStep_initiateClose _ _ _ _ _
  | checkIdle => exact c.closeStep_checkIdleTimeout env
  | establish => exact c.closeStep_establish
  | _ => exact hsame fun _ => rfl

theorem CloseStep.eq_of_closeBegun {c c' : Connection}
    (h : CloseStep c.closeStatus c'.closeStatus) (hb : c.closeBegun = true) :
    c'.closeStatus = c.closeStatus := by
  have hopen : ¬ (c.closeStatus.1 = .handshaking ∨ c.closeStatus.1 = .established) := fun ho => by
    rw [closeBegun_eq_false.2 ho] at hb
    cases hb
  generalize c'.closeStatus = s' at h ⊢
  cases h with
  | same => rfl
  | initiate ho | elsewhere ho => exact absurd ho hopen

theorem CloseStep.closeOwed {c c' : Connection} (h : CloseStep c.closeStatus c'.closeStatus)
    (hs : c.state ≠ .closing) (hs' : c'.state = .closing) : c'.closeOwed = true := by
  have hpending : c'.closeStatus.1 = .closing → c'.closeStatus.2.isSome = true := by
    generalize c'.closeStatus = s' at h ⊢
    cases h with
    | same => exact fun heq => absurd heq hs
    | initiate => exact fun _ => rfl
    | elsewhere _ hne => exact fun heq => absurd heq hne
  rw [Connection.closeOwed, hs', show c'.pendingClose.isSome = true from hpending hs']
  rfl

/-! ## Sending in Closing -/

theorem state_buildAndSend (env : Env) (level : EncryptionLevel) :
    (c.buildAndSend env level).conn.state = c.state :=
  (congrArg (·.state) (c.forgetOutbound_buildAndSend env level) :)

end Connection

namespace Run

/-- `initiate_close` has moved the connection to Closing, now or earlier. -/
def CloseInitiated (r : Run) : Prop := r.conn.state = .closing ∨ ∃ y ∈ r.trace, y.1.state = .closing
  deriving Decidable

/-- The packets sent after `initiate_close`, newest first: the state and the level of each. -/
def sentAfterClose (env : Env) : List (Connection × Action) → List (Connection × EncryptionLevel)
  | [] => []
  | (c, .send level) :: past =>
    if CloseInitiated ⟨c, past⟩ ∧ c.faulted = false ∧ (c.buildAndSend env level).datagram.isSome then
      (c, level) :: sentAfterClose env past
    else sentAfterClose env past
  | _ :: past => sentAfterClose env past

/-- What is to hold of a step of a run: after `initiate_close` the only packet is the
CONNECTION_CLOSE, and frames from the peer change nothing. -/
structure StaysQuiet (env : Env) (x : Connection × Action) (past : List (Connection × Action)) :
    Prop where
  /-- Exactly one packet was sent, or none as long as the close is owed. -/
  once : CloseInitiated ⟨x.1.perform env x.2, x :: past⟩ →
    (sentAfterClose env (x :: past)).length = if (x.1.perform env x.2).closeOwed then 0 else 1
  /-- The packet is the close, at the highest level with send keys. -/
  close_only : ∀ y ∈ sentAfterClose env (x :: past),
    y.2 = y.1.bestLevel ∧ ∃ f, y.1.nextFrames y.2 = some [.connectionClose f]
  /-- It goes out as soon as that level is asked to send. -/
  at_once : x.1.faulted = false → x.1.closeOwed = true → x.2 = .send x.1.bestLevel →
    (x.1.perform env x.2).closeOwed = false
  frames_ignored : CloseInitiated ⟨x.1, past⟩ → ∀ level f, x.2 = .frame level f →
    (x.1.perform env x.2).peerView = x.1.peerView

theorem closeInitiated_perform (r : Run) (env : Env) (a : Action) :
    (r.perform env a).CloseInitiated ↔
      r.CloseInitiated ∨ (r.conn.perform env a).state = .closing := by
  simp only [CloseInitiated, perform, exists_mem_cons_iff]
  exact or_comm

structure CloseInv (env : Env) (r : Run) : Prop where
  begun : r.CloseInitiated → r.conn.closeBegun = true
  once : r.CloseInitiated →
    (sentAfterClose env r.trace).length = if r.conn.closeOwed then 0 else 1
  none_before : ¬ r.CloseInitiated → sentAfterClose env r.trace = []
  close_only : ∀ y ∈ sentAfterClose env r.trace,
    y.2 = y.1.bestLevel ∧ ∃ f, y.1.nextFrames y.2 = some [.connectionClose f]

section
variable {env : Env} {r : Run}

section
variable (h : CloseInv env r) (hf : r.conn.faulted = false)
include h hf

end

theorem closeBegun_perform {c : Connection} (env : Env) (a : Action) (h : c.closeBegun = true) :
    (c.perform env a).closeBegun = true := by
  refine c.perform_rule env a (fun _ => h) fun _ => ?_
  have hsame (hstate : (c.act env a).state = c.state) : (c.act env a).closeBegun = true := by
    rw [closeBegun, hstate]
    exact h
  rcases a.send_or_ne with ⟨level, rfl⟩ | hs
  · exact hsame (c.state_buildAndSend env level)
  by_cases hg : ∃ level g, a = .frame level (.connectionClose g)
  · obtain ⟨level, g, rfl⟩ := hg
    rfl
  · have hstep := c.closeStep_act env a hs fun level g ha => hg ⟨level, g, ha⟩
    exact hsame (congrArg Prod.fst (hstep.eq_of_closeBegun h))

theorem CloseInv.perform (h : CloseInv env r) (hq : StaysQuiet env (r.conn, a) r.trace) :
    CloseInv env (r.perform env a) := by
  refine ⟨fun hi => ?_, hq.once, fun hi => ?_, hq.close_only⟩
  · rcases (r.closeInitiated_perform env a).1 hi with hr | hs
    · exact closeBegun_perform env a (h.begun hr)
    · show (r.conn.perform env a).closeBegun = true
      rw [closeBegun, hs]
  · have hr : ¬ r.CloseInitiated := fun hr => hi ((r.closeInitiated_perform env a).2 (.inl hr))
    have hnil := h.none_before hr
    cases a with
    | send level => exact (if_neg fun hsend => hr hsend.1).trans hnil
    | _ => exact hnil

end

/-! ## A send pass reaches the level of the close -/

end Run

end Spaznet.Quic
