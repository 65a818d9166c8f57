import Spaznet.Quic.Connection.StreamStep
import Spaznet.Quic.Connection.Wire
import Spaznet.Quic.Connection.Plain

/-!
# Receive windows of streams

The connection's own window is extended on every timer tick. The window of a stream is set when the
stream is created, and nothing extends it.
-/

namespace Spaznet.Quic

open Option

namespace Connection

def recvWindow (c : Connection) (streamId : Nat) : Nat := (c.initialLimits streamId).1

theorem recvWindow_of_fixed {c c' : Connection} (h : c'.fixed = c.fixed) (streamId : Nat) :
    c'.recvWindow streamId = c.recvWindow streamId := by
  have hlocal : c'.localTp = c.localTp := congrArg (fun x => x.2.2) h
  unfold recvWindow initialLimits
  rw [hlocal]
  split <;> split <;> rfl

/-- Every stream has the limit it started with. -/
def InitialWindows (c : Connection) : Prop :=
  ∀ id s, c.findStream id = some s → s.recvLimit = c.recvWindow id

theorem InitialWindows.streamOrNew {c : Connection} (h : c.InitialWindows) (id : Nat) :
    (c.streamOrNew id).recvLimit = c.recvWindow id := by
  unfold Connection.streamOrNew
  cases hs : c.findStream id with
  | none => rfl
  | some s => exact h id s hs

theorem InitialWindows.act {c : Connection} (h : c.InitialWindows) (env : Env) (a : Action) :
    (c.act env a).InitialWindows := by
  intro id s' hs'
  rw [recvWindow_of_fixed (c.fixed_act env a)]
  have hreceived {s t : Stream} (heq : s.forgetReceived = t.forgetReceived) :
      s.recvLimit = t.recvLimit := (congrArg Stream.recvLimit heq :)
  have hsent {s t : Stream} (heq : s.inbound = t.inbound) : s.recvLimit = t.recvLimit :=
    (congrArg Stream.recvLimit heq :)
  have hstep := c.streamStep_act env a id
  generalize (c.act env a).findStream id = o at hstep hs'
  cases hstep with
  | same => exact h id s' hs'
  | delivered hid =>
    obtain rfl := some.inj hs'
    subst hid
    exact (hreceived (c.forgetReceived_streamAfter_stream _)).trans (h.streamOrNew _)
  | reset hid =>
    obtain rfl := some.inj hs'
    subst hid
    exact (hreceived (c.forgetReceived_streamAfter_reset _)).trans (h.streamOrNew _)
  | limited hs =>
    obtain rfl := some.inj hs'
    refine Eq.trans ?_ (h id _ hs)
    unfold Stream.setSendLimit
    split <;> rfl
  | written =>
    obtain rfl := some.inj hs'
    exact (hsent (Stream.inbound_write ..)).trans (h.streamOrNew id)
  | read hs =>
    obtain rfl := some.inj hs'
    exact (hreceived (Stream.forgetReceived_readContiguous _)).trans (h id _ hs)
  | retired => cases hs'
  | sendSide _ hs heq =>
    obtain rfl := some.inj hs'
    exact (hsent heq).trans (h id _ hs)

theorem InitialWindows.perform {c : Connection} (h : c.InitialWindows) (env : Env) (a : Action) :
    (c.perform env a).InitialWindows :=
  c.perform_rule env a (fun _ => h) fun _ => h.act env a

/-- A stream the peer sends on has received and read all that its limit allows, and its end is not
known. -/
structure UsedUp (c : Connection) (id : Nat) (s : Stream) : Prop where
  up : c.faulted = false ∧ c.state = .established
  live : c.findStream id = some s
  receives : isBidi id = true ∨ isClientInitiated id = true
  endless : s.recvFinalSize = none
  read : s.recvReadOffset = s.recvHighWater
  full : s.recvHighWater = s.recvLimit

/-- No stream that may still grow stands at the end of the window it started with. -/
def WindowsLeft (c : Connection) : Prop :=
  c.faulted = false → c.state = .established → ∀ id s, c.findStream id = some s →
    isBidi id = true ∨ isClientInitiated id = true → s.recvFinalSize = none →
      s.recvReadOffset = s.recvHighWater → s.recvHighWater ≠ c.recvWindow id

theorem InitialWindows.windowsLeft_iff {c : Connection} (h : c.InitialWindows) :
    c.WindowsLeft ↔ ∀ id s, ¬ c.UsedUp id s := by
  constructor
  · intro hleft id s hused
    exact hleft hused.up.1 hused.up.2 id s hused.live hused.receives hused.endless hused.read
      (hused.full.trans (h id s hused.live))
  · intro hnone hf hstate id s hs hrecv hend hread hfull
    exact hnone id s ⟨⟨hf, hstate⟩, hs, hrecv, hend, hread, hfull.trans (h id s hs).symm⟩

end Connection

namespace Run

def Advertises (r : Run) (id limit : Nat) : Prop :=
  ∃ x ∈ r.trace, ∃ level frames, x.2 = .send level ∧ x.1.nextFrames level = some frames ∧
    Frame.maxStreamData id limit ∈ frames

/-- The next timer tick raises and advertises the limit of every stream whose window is used up. -/
def Replenishes (env : Env) (r : Run) : Prop :=
  ∀ id s, r.conn.UsedUp id s → ∃ s', (r.onTimer env).conn.findStream id = some s' ∧
    s.recvLimit < s'.recvLimit ∧ (r.onTimer env).Advertises id s'.recvLimit

theorem Reaches.initialWindows {env : Env} (h : Reaches env r r') (hr : r.conn.InitialWindows) :
    r'.conn.InitialWindows ∧ r'.conn.fixed = r.conn.fixed := by
  refine h.invariant (I := fun x => x.conn.InitialWindows ∧ x.conn.fixed = r.conn.fixed)
    (P := fun _ _ => True) ?_ ⟨hr, rfl⟩ fun _ _ => trivial
  rintro x a ⟨hx, hfixed⟩ -
  exact ⟨hx.perform env a, (x.conn.fixed_perform env a).trans hfixed⟩

/-- In every state that a new connection reaches, the next timer tick replenishes the windows that
are used up exactly if there are none. -/
theorem replenishes_iff (env : Env) (clientDcid clientScid serverScid : Bytes)
    (tp : TransportParameters) (events : List Event) :
    Replenishes env (ofEvents env (.create env clientDcid clientScid serverScid tp) events) ↔
      (ofEvents env (.create env clientDcid clientScid serverScid tp) events).conn.WindowsLeft := by
  have hnew : (Connection.create env clientDcid clientScid serverScid tp).InitialWindows :=
    fun id s hs => nomatch (hs : none = some s)
  have hrun : Reaches env ⟨.create env clientDcid clientScid serverScid tp, []⟩ _ :=
    reaches_ofEvents _ events
  obtain ⟨hwindows, -⟩ := hrun.initialWindows hnew
  rw [hwindows.windowsLeft_iff]
  generalize ofEvents env _ events = r at hwindows ⊢
  have htick : Reaches env r _ := r.reachesBy_onTimer.reaches
  obtain ⟨hafter, hfixed⟩ := htick.initialWindows hwindows
  constructor
  · intro h id s hused
    obtain ⟨s', hs', hraised, -⟩ := h id s hused
    have hlimit := hafter id s' hs'
    rw [Connection.recvWindow_of_fixed hfixed, ← hwindows id s hused.live] at hlimit
    omega
  · exact fun h id s hused => absurd hused (h id s)

def narrowParams : TransportParameters :=
  { initialMaxData := 100, initialMaxStreamsBidi := 1, initialMaxStreamDataBidiRemote := 4 }

/-- The peer sends the four bytes and the application reads them. -/
def uploadRun : Run :=
  ofEvents (Env.plainEstablished {}) (.create (Env.plainEstablished {}) [] [] [] narrowParams)
    [.timer, .datagram ([0x40, 0, 0x0a, 0, 4, 1, 2, 3, 4] ++ List.replicate 16 0), .readStream 0]

/-- The next tick leaves the limit where it is. -/
theorem not_replenishes_upload : ¬ Replenishes (Env.plainEstablished {}) uploadRun := by
  intro h
  have hbefore : (uploadRun.conn.findStream 0).map
      (fun s => (s.recvFinalSize, s.recvReadOffset, s.recvHighWater, s.recvLimit)) =
        some (none, 4, 4, 4) := by decide +kernel
  have hafter : ((uploadRun.onTimer (Env.plainEstablished {})).conn.findStream 0).map
      Stream.recvLimit = some 4 := by decide +kernel
  obtain ⟨s, hs, hfields⟩ := map_eq_some_iff.mp hbefore
  simp only [Prod.mk.injEq] at hfields
  obtain ⟨hend, hread, hhigh, hlimit⟩ := hfields
  obtain ⟨s', hs', hraised, -⟩ := h 0 s
    ⟨by decide +kernel, hs, .inl rfl, hend, hread.trans hhigh.symm, hhigh.trans hlimit.symm⟩
  rw [hs', map_some, some.injEq] at hafter
  omega

end Run

end Spaznet.Quic
