import Spaznet.Quic.Connection.LedgerRun
import Spaznet.Quic.Connection.Plain

/-!
# Every byte that was sent has one owner

Along every run, each offset that a stream has sent lies below its base, in one of its acknowledged
or lost ranges, or in one STREAM frame of one record of `sent_`. So retransmissions never reach
outside the send buffer, and what goes out at an offset is what was written there.
-/

namespace Spaznet.Quic

open Connection List Function

namespace Stream.Accounted

variable {s s' : Stream} {written : Bytes} {out : List StreamFrame}

theorem base_of_done (h : Accounted written out s)
    (hdone : s.sendDone = true ∨ s.sendState = .ready) :
    s.sendBufBaseOffset = s.sendHighWater ∨ s.sendHighWater = 0 := by
  rcases hdone with hdone | hready
  · simp only [sendDone, Bool.or_eq_true, beq_iff_eq] at hdone
    exact .inl (h.finished (hdone.resolve_right h.not_reset.2))
  · exact .inr (h.ready hready)

theorem of_stray (h : Accounted written (sf :: out) s) (hblank : s.Blank) :
    Accounted written out s := by
  have hnext : s.sendNextOffset = 0 := congrArg Stream.sendNextOffset hblank
  refine h.of_cons_empty ?_
  by_contra hne
  have hbounds := h.cons_bounds hne
  omega

end Stream.Accounted

def Stream.TakesWrite (s : Stream) (data : Bytes) (_ : Bool) : Prop :=
  s.writable = true → s.sendHighWater + data.length < 2 ^ 64

theorem accounted_rules :
    SendRules (fun h out s => s.Accounted h.written out) Stream.TakesWrite where
  congr h heq := h.congr heq
  perm h hp := h.perm hp
  write {h out s data fin} hJ hw := by
    have hwritten : (h.write s data fin).written =
        if s.writable then h.written ++ data else h.written := by
      unfold SendHistory.write
      split <;> rfl
    rw [hwritten]
    exact hJ.write hw
  pullSend h maxBytes maxFresh id := h.pullSend maxBytes maxFresh id
  onAcked h := h.onAcked
  onLost h := h.onLost
  stray hblank h := ⟨h.of_stray hblank, h.of_stray hblank⟩
  retire h hdone hblank := .of_blank hblank (h.no_bytes (h.base_of_done hdone))

namespace Run

/-- What the application wrote to a stream since the stream was last retired. -/
def history (id : Nat) : List (Connection × Action) → SendHistory
  | [] => {}
  | (c, a) :: past =>
    if c.faulted then history id past
    else match a with
      | .writeStream streamId data fin =>
        if streamId = id then (history id past).write (c.streamOrNew id) data fin
        else history id past
      | .retire => if c.retires id then {} else history id past
      | _ => history id past

def written (id : Nat) (trace : List (Connection × Action)) : Bytes := (history id trace).written

end Run

/-- The part of a history that the application determines. -/
def SendHistory.writes (h : SendHistory) : SendHistory := { h with acked := [] }

/-- The offsets of a stream stay within 64 bits. -/
def Action.writesFit (c : Connection) : Action → Bool
  | .writeStream streamId data _ =>
    !(c.streamOrNew streamId).writable ||
      decide ((c.streamOrNew streamId).sendHighWater + data.length < 2 ^ 64)
  | _ => true

/-- Packets are sealed, streams keep within 64 bits, and a stream that is retired has nothing on its
way. -/
def Action.Orderly (env : Env) (c : Connection) (a : Action) : Prop :=
  SealsPackets env c a ∧ RetiresDone c a ∧ a.writesFit c = true
  deriving Decidable

theorem Action.takesWrite (h : Action.writesFit c (.writeStream streamId data fin) = true) :
    (c.streamOrNew streamId).TakesWrite data fin := by
  intro hw
  simpa [writesFit, hw] using h

namespace Run

theorem writes_ackAll (h : Nat → SendHistory) (frames : List StreamFrame) (id : Nat) :
    (ackAll h frames id).writes = (h id).writes := by
  induction frames generalizing h with
  | nil => rfl
  | cons sf frames ih =>
    refine (ih _).trans ?_
    dsimp only
    by_cases hid : id = sf.streamId
    · rw [hid, update_self]
      rfl
    · rw [update_of_ne hid]

theorem writes_write (h : SendHistory) (s : Stream) (data : Bytes) (fin : Bool) :
    (h.write s data fin).writes = h.writes.write s data fin := by
  unfold SendHistory.write
  split <;> rfl

theorem history_step (hf : c.faulted = false) (hstep : HistoryStep c h h' a)
    (hw : ∀ id, (h id).writes = history id past) (id : Nat) :
    (h' id).writes = history id ((c, a) :: past) := by
  unfold history
  rw [hf, if_neg Bool.false_ne_true]
  cases a with
  | writeStream streamId data fin =>
    rw [show h' = _ from hstep]
    dsimp only
    by_cases hid : streamId = id
    · rw [hid, update_self, if_pos rfl, writes_write, hw]
    · rw [update_of_ne (Ne.symm hid), if_neg hid, hw]
  | retire =>
    rw [show h' = _ from hstep]
    dsimp only
    split
    · rfl
    · exact hw id
  | frame level f =>
    cases f with
    | ack f =>
      obtain ⟨frames, -, rfl⟩ := hstep
      exact (writes_ackAll h frames id).trans (hw id)
    | _ =>
      rw [show h' = h from hstep]
      exact hw id
  | _ =>
    rw [show h' = h from hstep]
    exact hw id

theorem writes_history (id : Nat) (trace : List (Connection × Action)) :
    (history id trace).writes = history id trace := by
  induction trace with
  | nil => rfl
  | cons x past ih =>
    unfold history
    split
    · exact ih
    split
    · split
      · rw [writes_write, ih]
      · exact ih
    · split
      · rfl
      · exact ih
    · exact ih

structure AccountInv (r : Run) : Prop where
  fresh : PnFresh r.conn
  books : Books (fun h out s => s.Accounted h.written out)
    (fun id => history id r.trace) (flight r.conn.sent ++ []) r.conn

theorem AccountInv.perform (hI : AccountInv r) (env : Env) (a : Action)
    (ha : r.conn.faulted = false → a.Orderly env r.conn) : AccountInv (r.perform env a) := by
  cases hf : r.conn.faulted with
  | true =>
    have hact := perform_of_faulted env hf a
    have hhist (id : Nat) : history id ((r.conn, a) :: r.trace) = history id r.trace := if_pos hf
    refine ⟨?_, ?_⟩
    · show PnFresh (r.conn.perform env a)
      rw [hact]
      exact hI.fresh
    · show Books _ (fun id => history id ((r.conn, a) :: r.trace))
        (flight (r.conn.perform env a).sent ++ []) (r.conn.perform env a)
      simp only [hact, hhist]
      exact hI.books
  | false =>
    obtain ⟨hseal, hretire, hwrite⟩ := ha hf
    obtain ⟨h', rest', hstep⟩ := hI.books.act accounted_rules hI.fresh hf env a
      (fun _ _ _ heq => Action.takesWrite (heq ▸ hwrite)) hretire
    have hact := perform_of_not_faulted env hf a
    have hbooks := hstep.books
    rw [hstep.orphans hseal] at hbooks
    refine ⟨?_, ?_⟩
    · show PnFresh (r.conn.perform env a)
      rw [hact]
      exact hstep.fresh
    · show Books _ _ (flight (r.conn.perform env a).sent ++ []) (r.conn.perform env a)
      rw [hact]
      intro id
      have hhist := history_step hf hstep.history (fun id => writes_history id r.trace) id
      have hwritten : (h' id).writes.written = _ := congrArg SendHistory.written hhist
      have hid : Stream.Accounted (h' id).writes.written _ _ := hbooks id
      rwa [hwritten] at hid

theorem AccountInv.accounted {id : Nat} (hI : AccountInv r) (hs : r.conn.findStream id = some s) :
    s.Accounted (written id r.trace) (framesOf id (flight r.conn.sent)) := by
  have hJ := hI.books id
  rwa [streamOrNew_of_findStream hs, append_nil] at hJ

/-- A 1-RTT packet that acknowledges the packet numbers from `first` to `largest`. -/
def ackPacket (pn first largest : UInt8) : Bytes :=
  [0x40, pn, 0x02, largest, 0, 0, largest - first] ++ List.replicate 16 0

def openPeer : TransportParameters :=
  { initialMaxData := 100, initialMaxStreamDataBidiLocal := 100 }

/-- Four packets of one byte each. The acknowledgement of the last one makes the others lost. -/
def lossEvents : List Event :=
  [.timer, .markPeerAddressValidated, .writeStream 0 [1] false, .timer, .writeStream 0 [2] false,
    .timer, .writeStream 0 [3] false, .timer, .writeStream 0 [4] true, .timer,
    .datagram (ackPacket 0 3 3)]

/-- The lost bytes are sent again and acknowledged. -/
def retransmissionRun : Run := ofEvents (Env.plainEstablished openPeer)
  (.create (Env.plainEstablished openPeer) [] [] [] {})
  (lossEvents ++ [.timer, .datagram (ackPacket 1 4 4), .timer])

end Run

end Spaznet.Quic
