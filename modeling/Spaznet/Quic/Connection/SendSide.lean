import Spaznet.Quic.Connection.StreamStep

/-!
# What packets leave alone on the send side

Making and settling packets changes the send side of a stream only by `pull_send`, `on_acked` and
`on_lost`. What these three leave alone, packets leave alone. A stream whose FIN was not written
stays unfinished, and an unfinished stream is not retired.
-/

namespace Spaznet.Quic

theorem Connection.findStream_act_of_packets (hg : SendInvariant g)
    (env : Env) (c : Connection) (ha : a.packets = true) {id : Nat}
    (hs' : (c.act env a).findStream id = some s') (hs : c.findStream id = some s) : g s' = g s := by
  have hmap := congrArg (fun x => x.2.find? id) (outboundFrame_act hg c env ha)
  simp only [outboundFrame, OrdMap.find?_map] at hmap
  rw [show (c.act env a).streams.find? id = some s' from hs',
    show c.streams.find? id = some s from hs] at hmap
  exact Option.some.inj hmap

/-! ## Unfinished streams -/

namespace Stream

def unfinished (s : Stream) : Bool :=
  !s.sendFinQueued && (s.sendState = .ready || s.sendState = .send)

theorem unfinished_pullSend {s s' : Stream} (h : s.pullSend maxBytes maxFresh = some (p, s')) :
    s'.unfinished = s.unfinished := by
  cases pullSend_step h with
  | nothing => rfl
  | finOnly hlost hqueued => simp [unfinished, hqueued]
  | lost => rfl
  | fresh =>
    unfold unfinished
    cases hqueued : s.sendFinQueued with
    | true => rfl
    | false => simp

theorem unfinished_onAcked {s s' : Stream} (h : s.onAcked offset length = some s') :
    s'.unfinished = s.unfinished := by
  obtain rfl | ⟨buf, head, base, acked, fin, rfl⟩ := onAcked_eq h
  · rfl
  unfold tryAdvanceSendStateAfterAck
  split
  next hdone =>
    have hsent : s.sendState = .dataSent := hdone.1
    simp [unfinished, hsent]
  · rfl

theorem unfinished_onLost (s : Stream) (offset length : Nat) :
    (s.onLost offset length).unfinished = s.unfinished := by
  unfold onLost
  dsimp only
  split <;> split <;> rfl

theorem unfinished_invariant : SendInvariant unfinished :=
  ⟨unfinished_pullSend, unfinished_onAcked, unfinished_onLost⟩

/-- The send side of a stream is as `unfinished` sees it. -/
theorem unfinished_of_forgetReceived {s s' : Stream} (h : s'.forgetReceived = s.forgetReceived) :
    s'.unfinished = s.unfinished := (congrArg unfinished h :)

theorem not_terminal_of_unfinished {s : Stream} {id : Nat} (hbidi : isBidi id = true)
    (h : s.unfinished = true) : s.terminal id = false := by
  unfold unfinished at h
  have hdone : s.sendDone = false := by
    unfold sendDone
    cases hstate : s.sendState <;> simp_all
  rw [terminal, if_pos hbidi, hdone, Bool.and_false]

end Stream

end Spaznet.Quic
