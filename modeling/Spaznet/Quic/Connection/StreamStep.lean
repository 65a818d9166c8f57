import Spaznet.Quic.Connection.Delivery

/-!
# What an action does to a stream

`StreamStep` lists what can become of the stream under an id: it is created or changed by a STREAM
or RESET_STREAM frame or a write, gets a higher limit, is read, is retired, or changes its send side
when packets are made, acknowledged or lost.
-/

namespace Spaznet.Quic

open Connection Option

/-- The action puts a stream with the id into the map if there is none. -/
def Action.Opens (c : Connection) (id : Nat) : Action → Prop
  | .frame _ (.stream f) => f.streamId = id ∧ c.admits (streamDelivery f) = true
  | .frame _ (.resetStream f) => f.streamId = id ∧ c.admits (resetDelivery f) = true
  | .writeStream streamId _ _ => streamId = id
  | _ => False

theorem Action.not_opens_of_quiet {a : Action} (h : a.quiet = true) (c : Connection) (k : Nat) :
    ¬ a.Opens c k := by
  cases a with
  | frame level f =>
    cases f with
    | stream | resetStream => cases h
    | _ => exact fun ho => ho
  | writeStream => cases h
  | _ => exact fun ho => ho

inductive StreamStep (c : Connection) (id : Nat) : Action → Option Stream → Prop where
  | same (h : ¬ a.Opens c id) : StreamStep c id a (c.findStream id)
  | delivered (hid : f.streamId = id) (hadm : c.admits (streamDelivery f) = true) :
      StreamStep c id (.frame level (.stream f)) (some (c.streamAfter (streamDelivery f)))
  | reset (hid : f.streamId = id) (hadm : c.admits (resetDelivery f) = true) :
      StreamStep c id (.frame level (.resetStream f)) (some (c.streamAfter (resetDelivery f)))
  | limited (hs : c.findStream id = some s) :
      StreamStep c id (.frame level (.maxStreamData id maximum)) (some (s.setSendLimit maximum))
  | written : StreamStep c id (.writeStream id data fin) (some ((c.streamOrNew id).write data fin))
  | read (hs : c.findStream id = some s) :
      StreamStep c id (.readStream id) (some s.readContiguous.2)
  | retired (hs : c.findStream id = some s) (ht : s.terminal id = true) :
      StreamStep c id .retire none
  | sendSide (ha : a.packets = true) (hs : c.findStream id = some s) (h : s'.inbound = s.inbound) :
      StreamStep c id a (some s')

namespace Connection

variable {c : Connection} {id : Nat}

theorem forgetReceived_streamAfter (c : Connection)
    (h : ∀ s, (d.apply s).2.forgetReceived = s.forgetReceived) :
    (c.streamAfter d).forgetReceived = (c.streamOrNew d.streamId).forgetReceived := by
  unfold streamAfter
  split
  · exact h _
  · rfl

theorem forgetReceived_streamAfter_stream (c : Connection) (f : StreamFrame) :
    (c.streamAfter (streamDelivery f)).forgetReceived =
      (c.streamOrNew f.streamId).forgetReceived :=
  c.forgetReceived_streamAfter fun s => s.forgetReceived_deliver _ _ _

theorem forgetReceived_streamAfter_reset (c : Connection) (f : ResetStreamFrame) :
    (c.streamAfter (resetDelivery f)).forgetReceived = (c.streamOrNew f.streamId).forgetReceived :=
  c.forgetReceived_streamAfter fun s => s.forgetReceived_resetRecvd _ _

theorem findStream_of_inbound {c' : Connection} (h : c'.inboundStreams = c.inboundStreams)
    (id : Nat) : (c'.findStream id).map Stream.inbound = (c.findStream id).map Stream.inbound := by
  have hid := congrArg (OrdMap.find? · id) h
  simp only [inboundStreams, OrdMap.find?_map] at hid
  exact hid

theorem streamStep_of_packets (c : Connection) (env : Env) (ha : a.packets = true) (id : Nat) :
    StreamStep c id a ((c.act env a).findStream id) := by
  have hid := findStream_of_inbound
    (congrArg streams (c.forgetOutbound_act env ha) :) id
  cases hs : c.findStream id with
  | none =>
    rw [hs, map_none, map_eq_none_iff] at hid
    have hno : ¬ a.Opens c id := by
      cases a with
      | frame level f => cases f <;> first | exact fun ho => ho | cases ha
      | _ => first | exact fun ho => ho | cases ha
    rw [hid, ← hs]
    exact .same hno
  | some s =>
    rw [hs, map_some, map_eq_some_iff] at hid
    obtain ⟨s', hs', heq⟩ := hid
    rw [hs']
    exact .sendSide ha hs heq

theorem streamStep_modify (h : ¬ a.Opens c id) (k : Nat) (f : Stream → Stream)
    (hstep : ∀ s, c.findStream k = some s → id = k → StreamStep c id a (some (f s))) :
    StreamStep c id a ((c.streams.modify k f).find? id) := by
  rw [OrdMap.find?_modify]
  split
  next hid =>
    cases hs : c.streams.find? id with
    | none =>
      rw [map_none, ← hs]
      exact .same h
    | some s =>
      exact hstep s (hid ▸ hs) hid
  next => exact .same h

theorem findStream_writeStream (c : Connection) (streamId : Nat) (data : Bytes) (fin : Bool)
    (id : Nat) : (c.writeStream streamId data fin).findStream id =
      if id = streamId then some ((c.streamOrNew streamId).write data fin)
      else c.findStream id := by
  have hfind : (c.ensureStream streamId).2.streams.find? id = _ :=
    c.findStream_ensureStream streamId id
  show ((c.ensureStream streamId).2.streams.modify streamId fun _ =>
    (c.ensureStream streamId).1.write data fin).find? id = _
  rw [OrdMap.find?_modify, hfind, ensureStream_fst]
  split <;> rfl

/-- **Streams step by step.** -/
theorem streamStep_act (c : Connection) (env : Env) (a : Action) (id : Nat) :
    StreamStep c id a ((c.act env a).findStream id) := by
  cases hq : a.quiet with
  | true =>
    have hsame := congrArg (fun c => c.findStream id) (c.forgetQuiet_act env hq)
    rw [show (c.act env a).findStream id = c.findStream id from hsame]
    exact .same (Action.not_opens_of_quiet hq c id)
  | false =>
    cases a with
    | frame level f =>
      cases f with
      | stream f =>
        rw [act, onFrame, onStreamFrame, findStream_deliverTo]
        split
        next h => exact .delivered h.1.symm h.2
        next h => exact .same fun ho => h ⟨ho.1.symm, ho.2⟩
      | resetStream f =>
        rw [act, onFrame, onResetStreamFrame, findStream_deliverTo]
        split
        next h => exact .reset h.1.symm h.2
        next h => exact .same fun ho => h ⟨ho.1.symm, ho.2⟩
      | ack f => exact c.streamStep_of_packets env rfl id
      | maxStreamData streamId maximum =>
        rw [act, onFrame, updateStream_some]
        refine streamStep_modify (a := .frame level (.maxStreamData streamId maximum))
          (fun ho => ho) streamId _ fun s hs hid => ?_
        subst hid
        exact .limited hs
      | maxData | maxStreams =>
        rw [c.act_frame env (·.findStream id) fun _ => rfl]
        exact .same fun ho => ho
      | _ => cases hq
    | writeStream streamId data fin =>
      rw [act, findStream_writeStream]
      split
      next hid =>
        subst hid
        exact .written
      next hid => exact .same fun ho => hid ho.symm
    | send | checkPto => exact c.streamStep_of_packets env rfl id
    | retire =>
      show StreamStep c id _ ((c.streams.filter _).find? id)
      rw [OrdMap.find?_filter]
      cases hs : c.streams.find? id with
      | none =>
        rw [filter_none, ← hs]
        exact .same fun ho => ho
      | some s =>
        cases ht : s.terminal id with
        | true =>
          rw [filter_some_neg (by simp [ht])]
          exact .retired hs ht
        | false =>
          rw [filter_some_pos (by simp [ht]), ← hs]
          exact .same fun ho => ho
    | refreshWindow => exact .same fun ho => ho
    | readStream streamId =>
      simp only [act, readStream]
      split
      · exact .same fun ho => ho
      next s hs =>
        refine streamStep_modify (a := .readStream _) (fun ho => ho) streamId _ fun _ _ hid => ?_
        subst hid
        exact .read hs
    | _ => cases hq

/-- **Who opens streams.** An id that is not open stays so exactly if the action does not open
it. -/
theorem findStream_act_eq_none_iff (env : Env) (a : Action) (hn : c.findStream id = none) :
    (c.act env a).findStream id = none ↔ ¬ a.Opens c id := by
  have hstep := c.streamStep_act env a id
  generalize (c.act env a).findStream id = o at hstep
  cases hstep with
  | same h => exact iff_of_true hn h
  | delivered hid hadm | reset hid hadm => exact iff_of_false nofun fun h => h ⟨hid, hadm⟩
  | written => exact iff_of_false nofun fun h => h rfl
  | limited hs | read hs | retired hs | sendSide _ hs =>
    rw [hn] at hs
    cases hs

end Connection

end Spaznet.Quic
