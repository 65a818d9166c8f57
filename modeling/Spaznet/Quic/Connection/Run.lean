import Spaznet.Lib.Machine
import Spaznet.Quic.Connection.Frames
import Spaznet.Quic.Connection.Lifecycle
import Spaznet.Quic.Connection.Open
import Spaznet.Quic.Connection.Send

/-!
# Runs of a connection

The entry points of a connection are sequences of a few elementary actions. A `Run` is a connection
together with the actions performed so far, each with the state it was performed in, newest first.
`onDatagram`, `onTimer` and the application's calls are written over it; an invariant is then proved
action by action.
-/

namespace Spaznet.Quic

open List

inductive Action where
  | noteDatagram (size : Nat)
  /-- Parse, unmask and open the long-header packet at an offset of a datagram. -/
  | longPacket (datagram : Bytes) (off : Nat)
  | shortPacket (dg : Bytes)
  /-- The payload of an opened packet cannot be parsed. -/
  | frameError
  | frame (level : EncryptionLevel) (f : Frame)
  /-- All frames of the packet were processed. -/
  | received (level : EncryptionLevel) (pn : Nat)
  | installKeys
  | advanceTls
  | pullCrypto
  | send (level : EncryptionLevel)
  | establish
  | checkIdle
  | checkPto
  | retire
  | refreshWindow
  | writeStream (streamId : Nat) (data : Bytes) (fin : Bool)
  | readStream (streamId : Nat)
  | close (errorCode : Nat) (application : Bool) (reason : Bytes) (frameType : Nat)
  | markValidated
  | keyUpdate
  deriving DecidableEq, Repr

def Action.ofPacket : Action → Bool
  | .longPacket _ _ | .shortPacket _ | .frameError | .frame _ _ | .received _ _ => true
  | _ => false

theorem Action.send_or_ne (a : Action) : (∃ level, a = .send level) ∨ ∀ level, a ≠ .send level := by
  by_cases h : ∃ level, a = .send level
  · exact .inl h
  · exact .inr fun level heq => h ⟨level, heq⟩

namespace Connection

/-- The effect of an action on a state whose behaviour is defined. -/
def act (env : Env) (c : Connection) : Action → Connection
  | .noteDatagram size => c.noteDatagram env size
  | .longPacket datagram off => match (c.openLongPacket env datagram off).result with
    | .abandon | .skip _ => c
    | .opened level pn _ _ => c.longOpened level pn
    | .fault => { c with faulted := true }
  | .shortPacket dg => match c.openShortPacket env dg with
    | none => c
    | some p => c.shortOpened env p
  | .frameError => c.closeTransport 0x07 "frame parse failed" 0
  | .frame level f => c.onFrame env level f
  | .received level pn => c.received level pn
  | .installKeys => c.installNewKeys env
  | .advanceTls => { c with tls := c.tls.advance env }
  | .pullCrypto => c.pullCryptoFromTls
  | .send level => (c.buildAndSend env level).conn
  | .establish => c.establish
  | .checkIdle => c.checkIdleTimeout env
  | .checkPto => c.checkPto env
  | .retire => c.retireClosedStreams
  | .refreshWindow => c.refreshConnRecvWindow
  | .writeStream streamId data fin => c.writeStream streamId data fin
  | .readStream streamId => (c.readStream streamId).2
  | .close errorCode application reason frameType =>
    c.initiateClose errorCode application reason frameType
  | .markValidated => { c with peerAddressValidated := true }
  | .keyUpdate => (c.initiateKeyUpdate env).2

/-- Nothing is defined after a fault. -/
def perform (env : Env) (c : Connection) (a : Action) : Connection :=
  if c.faulted then c else c.act env a

theorem perform_of_not_faulted {c : Connection} (env : Env) (h : c.faulted = false) (a : Action) :
    c.perform env a = c.act env a := by rw [perform, h]; rfl

theorem perform_of_faulted {c : Connection} (env : Env) (h : c.faulted = true) (a : Action) :
    c.perform env a = c := if_pos h

/-- A connection that has thrown stays as it is. -/
@[elab_as_elim]
theorem perform_rule {motive : Connection → Prop} (c : Connection) (env : Env) (a : Action)
    (hstays : c.faulted = true → motive c) (hacts : c.faulted = false → motive (c.act env a)) :
    motive (c.perform env a) := by
  unfold perform
  split
  next hf => exact hstays hf
  next hf => exact hacts (Bool.eq_false_iff.2 hf)

end Connection

/-- A connection and its past, newest action first. -/
structure Run where
  conn : Connection
  trace : List (Connection × Action) := []

namespace Run

section
variable (env : Env)

def perform (r : Run) (a : Action) : Run :=
  ⟨r.conn.perform env a, (r.conn, a) :: r.trace⟩

def performAll (r : Run) (as : List Action) : Run := Machine.run (perform env) r as

def deliverFrames (r : Run) (level : EncryptionLevel) (payload : Bytes) : Run :=
  match parseFrames payload with
  | none => r.perform env .frameError
  | some frames => r.performAll env (frames.map (.frame level))

/-- The offset of the next packet, or none if the datagram is abandoned. -/
def processLongPacket (r : Run) (datagram : Bytes) (off : Nat) : Option Nat × Run :=
  let result := (r.conn.openLongPacket env datagram off).result
  let r := r.perform env (.longPacket datagram off)
  match result with
  | .abandon | .fault => (none, r)
  | .skip cursor => (some cursor, r)
  | .opened level pn payload cursor =>
    (some cursor, (r.deliverFrames env level payload).perform env (.received level pn))

def processShortPacket (r : Run) (dg : Bytes) : Run :=
  let p := r.conn.openShortPacket env dg
  let r := r.perform env (.shortPacket dg)
  match p with
  | none => r
  | some p => (r.deliverFrames env .application p.payload).perform env (.received .application p.pn)

/-- The loop over the coalesced packets. The flag says whether `on_datagram` goes on after it. -/
def walkPackets (datagram : Bytes) : Nat → Nat → Run → Bool × Run
  | 0, _, r => (true, r)
  | fuel + 1, off, r =>
    match datagram[off]? with
    | none => (true, r)
    | some first =>
      if first &&& 0x80 ≠ 0 then
        match r.processLongPacket env datagram off with
        | (none, r) => (false, r)
        | (some cursor, r) => walkPackets datagram fuel cursor r
      else (false, r.processShortPacket env (datagram.drop off))

/-- Call `build_and_send` until it returns false, at most `fuel` times. The flag says whether the
caller goes on: not after an exception. -/
def sendLoop (level : EncryptionLevel) : Nat → Run → Bool × Run
  | 0, r => (true, r)
  | fuel + 1, r =>
    if r.conn.faulted then (false, r)
    else
      let outcome := (r.conn.buildAndSend env level).outcome
      let r := r.perform env (.send level)
      match outcome with
      | .sent => sendLoop level fuel r
      | .idle => (true, r)
      | .threw => (false, r)

/-- The send loops of the levels; `fuel` bounds each. -/
def sendLevels (fuel : Connection → Nat) : List EncryptionLevel → Run → Bool × Run
  | [], r => (true, r)
  | level :: levels, r =>
    match r.sendLoop env level (fuel r.conn) with
    | (true, r) => sendLevels fuel levels r
    | (false, r) => (false, r)

/-- The send loops followed by the step to Established. -/
def flush (fuel : Connection → Nat) (r : Run) : Run :=
  match r.sendLevels env fuel EncryptionLevel.sending with
  | (true, r) => r.perform env .establish
  | (false, r) => r

def onDatagram (r : Run) (datagram : Bytes) : Run :=
  if r.conn.state = .closed ∨ r.conn.state = .draining then r
  else
    match walkPackets env datagram datagram.length 0
      (r.perform env (.noteDatagram datagram.length)) with
    | (false, r) => r
    | (true, r) =>
      (r.performAll env [.installKeys, .advanceTls, .installKeys, .pullCrypto]).flush env
        fun _ => 64

end

/-- Bytes and FINs a stream can still put on the wire. -/
def streamWork (s : Stream) : Nat :=
  (s.lostRanges.map (·.2)).sum + (s.sendHighWater - s.sendNextOffset) + 1

/-- More sends than a level can make before it runs dry: each takes a queue, a byte or a FIN. -/
def sendWork (c : Connection) : Nat := c.streams.sum (fun _ => streamWork) + 8

section
variable (env : Env)

def onTimer (r : Run) : Run :=
  let r := r.perform env .checkIdle
  if r.conn.state = .draining ∨ r.conn.state = .closed then r
  else
    (r.performAll env [.installKeys, .advanceTls, .installKeys, .checkPto, .pullCrypto, .retire,
      .refreshWindow]).flush env sendWork

end

end Run

/-- What happens to a connection from outside. -/
inductive Event where
  | datagram (bytes : Bytes)
  | timer
  | writeStream (streamId : Nat) (data : Bytes) (fin : Bool)
  | readStream (streamId : Nat)
  | closeWithError (errorCode : Nat) (application : Bool) (reason : Bytes) (frameType : Nat)
  | markPeerAddressValidated
  | initiateKeyUpdate
  deriving DecidableEq, Repr

namespace Run

variable (env : Env)
variable (datagram : Bytes) (fuel off : Nat)
  {P : Connection × Action → List (Connection × Action) → Prop}

def handle (r : Run) : Event → Run
  | .datagram bytes => r.onDatagram env bytes
  | .timer => r.onTimer env
  | .writeStream streamId data fin => r.perform env (.writeStream streamId data fin)
  | .readStream streamId => r.perform env (.readStream streamId)
  | .closeWithError errorCode application reason frameType =>
    r.perform env (.close errorCode application reason frameType)
  | .markPeerAddressValidated => r.perform env .markValidated
  | .initiateKeyUpdate => r.perform env .keyUpdate

def ofEvents (c : Connection) (events : List Event) : Run := events.foldl (handle env) ⟨c, []⟩

/-! ## Every entry point is a sequence of actions -/

/-- The second run continues the first by actions that meet `Q`. -/
def ReachesBy (Q : Action → Prop) (r r' : Run) : Prop :=
  ∃ as, (∀ a ∈ as, Q a) ∧ r' = r.performAll env as

def Reaches (r r' : Run) : Prop := ∃ as, r' = r.performAll env as

def IsSend (a : Action) : Prop := (∃ level, a = .send level) ∨ a = .establish

/-- The actions that the connection takes by itself: the application neither reads nor writes. -/
def IsOwn (a : Action) : Prop :=
  (∀ streamId, a ≠ .readStream streamId) ∧ ∀ streamId data fin, a ≠ .writeStream streamId data fin

variable {env}

theorem Reaches.refl (r : Run) : Reaches env r r := ⟨[], rfl⟩

theorem Reaches.trans (h : Reaches env r₁ r₂) (h' : Reaches env r₂ r₃) : Reaches env r₁ r₃ := by
  obtain ⟨as, rfl⟩ := h
  obtain ⟨bs, rfl⟩ := h'
  exact ⟨as ++ bs, (Machine.run_append _ _ _).symm⟩

theorem reaches_performAll (r : Run) (as : List Action) : Reaches env r (r.performAll env as) :=
  ⟨as, rfl⟩

theorem reaches_perform (r : Run) (a : Action) : Reaches env r (r.perform env a) :=
  r.reaches_performAll [a]

/-- The payload of a packet is its frames in order, or one parse error. -/
theorem deliverFrames_eq (r : Run) (env : Env) (level : EncryptionLevel) (payload : Bytes) :
    ∃ as, (∀ a ∈ as, a = .frameError ∨
        ∃ frames f, parseFrames payload = some frames ∧ f ∈ frames ∧ a = .frame level f) ∧
      r.deliverFrames env level payload = r.performAll env as := by
  unfold deliverFrames
  split
  · exact ⟨[.frameError], by simp, rfl⟩
  next frames hparse =>
    refine ⟨_, fun a ha => ?_, rfl⟩
    obtain ⟨f, hf, rfl⟩ := mem_map.1 ha
    exact .inr ⟨frames, f, hparse, hf, rfl⟩

theorem ReachesBy.refl (r : Run) : ReachesBy env Q r r := ⟨[], by simp, rfl⟩

theorem ReachesBy.trans (h : ReachesBy env Q r₁ r₂) (h' : ReachesBy env Q r₂ r₃) :
    ReachesBy env Q r₁ r₃ := by
  obtain ⟨as, has, rfl⟩ := h
  obtain ⟨bs, hbs, rfl⟩ := h'
  exact ⟨as ++ bs, fun a ha => (mem_append.1 ha).elim (has a) (hbs a),
    (Machine.run_append _ _ _).symm⟩

theorem ReachesBy.reaches (h : ReachesBy env Q r r') : Reaches env r r' := by
  obtain ⟨as, -, h⟩ := h
  exact ⟨as, h⟩

theorem reachesBy_perform (r : Run) (h : Q a) : ReachesBy env Q r (r.perform env a) := by
  have has : ∀ b ∈ [a], Q b := by simpa using h
  exact ⟨[a], has, rfl⟩

theorem reachesBy_sendLoop (level : EncryptionLevel) (fuel : Nat) (r : Run) :
    ReachesBy env IsSend r (sendLoop env level fuel r).2 := by
  induction fuel generalizing r with
  | zero => exact .refl r
  | succ fuel ih =>
    have hsend : ReachesBy env IsSend r _ := r.reachesBy_perform (.inl ⟨level, rfl⟩)
    unfold sendLoop
    split
    · exact .refl r
    dsimp only
    split
    · exact hsend.trans (ih _)
    all_goals exact hsend

theorem reachesBy_sendLevels (fuel : Connection → Nat) (levels : List EncryptionLevel) (r : Run) :
    ReachesBy env IsSend r (sendLevels env fuel levels r).2 := by
  induction levels generalizing r with
  | nil => exact .refl r
  | cons level levels ih =>
    have hloop : ReachesBy env IsSend r _ := reachesBy_sendLoop level (fuel r.conn) r
    unfold sendLevels
    split
    next heq =>
      rw [heq] at hloop
      exact hloop.trans (ih _)
    next heq => rwa [heq] at hloop

theorem reachesBy_flush (fuel : Connection → Nat) (r : Run) :
    ReachesBy env IsSend r (r.flush env fuel) := by
  have hsend : ReachesBy env IsSend r _ := reachesBy_sendLevels fuel EncryptionLevel.sending r
  unfold flush
  split
  next heq =>
    rw [heq] at hsend
    exact hsend.trans (reachesBy_perform _ (.inr rfl))
  next heq => rwa [heq] at hsend

theorem IsSend.own (h : IsSend a) : IsOwn a := by
  obtain ⟨level, rfl⟩ | rfl := h
  all_goals exact ⟨nofun, nofun⟩

theorem reachesBy_deliverFrames (r : Run) (level : EncryptionLevel) (payload : Bytes) :
    ReachesBy env IsOwn r (r.deliverFrames env level payload) := by
  obtain ⟨as, has, heq⟩ := r.deliverFrames_eq env level payload
  refine ⟨as, fun a ha => ?_, heq⟩
  obtain rfl | ⟨_, f, _, _, rfl⟩ := has a ha
  all_goals exact ⟨nofun, nofun⟩

theorem reachesBy_processLongPacket (r : Run) (datagram : Bytes) (off : Nat) :
    ReachesBy env IsOwn r (r.processLongPacket env datagram off).2 := by
  have hopen : ReachesBy env IsOwn r _ :=
    r.reachesBy_perform (a := .longPacket datagram off) ⟨nofun, nofun⟩
  unfold processLongPacket
  dsimp only
  split
  · exact hopen
  · exact hopen
  · exact hopen
  · exact hopen.trans
      ((reachesBy_deliverFrames _ _ _).trans (reachesBy_perform _ ⟨nofun, nofun⟩))

theorem reachesBy_processShortPacket (r : Run) (dg : Bytes) :
    ReachesBy env IsOwn r (r.processShortPacket env dg) := by
  have hopen : ReachesBy env IsOwn r _ :=
    r.reachesBy_perform (a := .shortPacket dg) ⟨nofun, nofun⟩
  unfold processShortPacket
  dsimp only
  split
  · exact hopen
  · exact hopen.trans
      ((reachesBy_deliverFrames _ _ _).trans (reachesBy_perform _ ⟨nofun, nofun⟩))

/-! ## Induction by packets -/

section
variable {I : Run → Prop} (hlong : ∀ r datagram off, I r → I (r.processLongPacket env datagram off).2)
  (hshort : ∀ r dg, I r → I (r.processShortPacket env dg))
include hlong hshort

theorem invariant_walkPackets (datagram : Bytes) (fuel off : Nat) (r : Run) (hr : I r) :
    I (walkPackets env datagram fuel off r).2 := by
  induction fuel generalizing off r with
  | zero => exact hr
  | succ fuel ih =>
    unfold walkPackets
    split
    · exact hr
    split
    · have hpacket := hlong r datagram off hr
      split
      next heq => rwa [heq] at hpacket
      next heq =>
        rw [heq] at hpacket
        exact ih _ _ hpacket
    · exact hshort r _ hr

omit hlong hshort

variable (hact : ∀ r a, a.ofPacket = false → IsOwn a → I r → I (r.perform env a))
include hact

theorem invariant_performAll (as : List Action) (h : ∀ a ∈ as, a.ofPacket = false ∧ IsOwn a) (r : Run)
    (hr : I r) : I (r.performAll env as) := by
  induction as generalizing r with
  | nil => exact hr
  | cons a as ih =>
    obtain ⟨⟨hpacket, hown⟩, has⟩ := forall_mem_cons.1 h
    exact ih has _ (hact r a hpacket hown hr)

theorem invariant_flush (fuel : Connection → Nat) (r : Run) (hr : I r) :
    I (r.flush env fuel) := by
  obtain ⟨as, has, heq⟩ : ReachesBy env IsSend r _ := reachesBy_flush fuel r
  rw [heq]
  refine invariant_performAll hact as (fun a ha => ⟨?_, (has a ha).own⟩) r hr
  rcases has a ha with ⟨level, rfl⟩ | rfl <;> rfl

theorem invariant_onTimer (r : Run) (hr : I r) : I (r.onTimer env) := by
  have hidle := hact r .checkIdle rfl ⟨nofun, nofun⟩ hr
  unfold onTimer
  dsimp only
  split
  · exact hidle
  · exact invariant_flush hact _ _
      (invariant_performAll hact _ (by simp [Action.ofPacket, IsOwn]) _ hidle)

include hlong hshort

theorem invariant_onDatagram (r : Run) (datagram : Bytes) (hr : I r) :
    I (r.onDatagram env datagram) := by
  unfold onDatagram
  split
  · exact hr
  have hwalk := invariant_walkPackets hlong hshort datagram datagram.length 0 _
    (hact r (.noteDatagram datagram.length) rfl ⟨nofun, nofun⟩ hr)
  split
  next heq => rwa [heq] at hwalk
  next heq =>
    rw [heq] at hwalk
    exact invariant_flush hact _ _
      (invariant_performAll hact _ (by simp [Action.ofPacket, IsOwn]) _ hwalk)

omit hact

/-- **Packet rule.** What every received packet as a whole keeps, and every action outside packets,
a run keeps. -/
theorem invariant_ofEvents (hact : ∀ r a, a.ofPacket = false → I r → I (r.perform env a))
    (c : Connection) (events : List Event) (hc : I ⟨c, []⟩) : I (ofEvents env c events) := by
  have hown : ∀ r a, a.ofPacket = false → IsOwn a → I r → I (r.perform env a) :=
    fun r a ha _ => hact r a ha
  refine List.foldlRecOn events (handle env) hc fun r hr e _ => ?_
  cases e with
  | datagram bytes => exact invariant_onDatagram hlong hshort hown r bytes hr
  | timer => exact invariant_onTimer hown r hr
  | writeStream | readStream | closeWithError | markPeerAddressValidated | initiateKeyUpdate =>
    exact hact r _ rfl hr

end

theorem ReachesBy.perform (h : ReachesBy env Q r r') (ha : Q a) :
    ReachesBy env Q r (r'.perform env a) := h.trans (r'.reachesBy_perform ha)

theorem ReachesBy.longPacket (h : ReachesBy env IsOwn r r') (datagram : Bytes) (off : Nat) :
    ReachesBy env IsOwn r (r'.processLongPacket env datagram off).2 :=
  h.trans (r'.reachesBy_processLongPacket datagram off)

theorem ReachesBy.shortPacket (h : ReachesBy env IsOwn r r') (dg : Bytes) :
    ReachesBy env IsOwn r (r'.processShortPacket env dg) :=
  h.trans (r'.reachesBy_processShortPacket dg)

theorem reachesBy_onDatagram (r : Run) (datagram : Bytes) :
    ReachesBy env IsOwn r (r.onDatagram env datagram) :=
  invariant_onDatagram (fun _ dg off h => h.longPacket dg off) (fun _ dg h => h.shortPacket dg)
    (fun _ _ _ hown h => h.perform hown) r datagram (.refl r)

theorem reachesBy_onTimer (r : Run) : ReachesBy env IsOwn r (r.onTimer env) :=
  invariant_onTimer (fun _ _ _ hown h => h.perform hown) r (.refl r)

theorem reaches_walkPackets (r : Run) : Reaches env r (walkPackets env datagram fuel off r).2 :=
  (invariant_walkPackets (I := ReachesBy env IsOwn r) (fun _ dg off h => h.longPacket dg off)
    (fun _ dg h => h.shortPacket dg) datagram fuel off r (.refl r)).reaches

theorem reaches_handle (r : Run) (e : Event) : Reaches env r (r.handle env e) := by
  cases e with
  | datagram bytes => exact (r.reachesBy_onDatagram bytes).reaches
  | timer => exact r.reachesBy_onTimer.reaches
  | writeStream | readStream | closeWithError | markPeerAddressValidated | initiateKeyUpdate =>
    exact r.reaches_perform _

theorem reaches_ofEvents (c : Connection) (events : List Event) :
    Reaches env ⟨c, []⟩ (ofEvents env c events) := by
  exact List.foldlRecOn events (handle env) (.refl _) fun r h e _ => h.trans (r.reaches_handle e)

/-! ## Induction along a run -/

theorem mem_trace_performAll {r : Run} (as : List Action) (h : x ∈ r.trace) :
    x ∈ (r.performAll env as).trace := by
  induction as generalizing r with
  | nil => exact h
  | cons a as ih => exact ih (mem_cons_of_mem _ h)

theorem mem_or_mem_of_mem_trace {r : Run} (as : List Action)
    (h : x ∈ (r.performAll env as).trace) : x ∈ r.trace ∨ x.2 ∈ as := by
  induction as generalizing r with
  | nil => exact .inl h
  | cons a as ih =>
    rcases ih h with h | h
    · rcases mem_cons.1 h with rfl | h
      · exact .inr (mem_cons_self)
      · exact .inl h
    · exact .inr (mem_cons_of_mem _ h)

theorem Reaches.mem_trace (h : Reaches env r r') (hx : x ∈ r.trace) : x ∈ r'.trace := by
  obtain ⟨as, rfl⟩ := h
  exact mem_trace_performAll as hx

/-- What the recorded actions meet, each step of the sequence met. -/
theorem allSteps_of_trace {P : Connection → Action → Prop} {r : Run}
    (h : ∀ x ∈ (r.performAll env as).trace, P x.1 x.2) :
    Machine.AllSteps (perform env) (fun r a => P r.conn a) r as := by
  induction as generalizing r with
  | nil => trivial
  | cons a as ih =>
    exact ⟨h (r.conn, a) (mem_trace_performAll as (mem_cons_self)), ih h⟩

/-- **Invariant rule.** What every action that meets `P` preserves, a run keeps whose actions all
meet `P`. -/
theorem Reaches.invariant {I : Run → Prop} {P : Connection → Action → Prop}
    (hstep : ∀ r a, I r → P r.conn a → I (r.perform env a)) (h : Reaches env r r') (hI : I r)
    (hP : ∀ x ∈ r'.trace, P x.1 x.2) : I r' := by
  obtain ⟨as, rfl⟩ := h
  exact Machine.run_invariant hstep hI (allSteps_of_trace hP)

/-! ## Statements about every step of a run -/

/-- `P` holds at each step, given the steps before it. -/
def AtEach (P : Connection × Action → List (Connection × Action) → Prop)
    (trace : List (Connection × Action)) : Prop :=
  ∀ x past, x :: past <:+ trace → P x past

theorem atEach_nil (P : Connection × Action → List (Connection × Action) → Prop) :
    AtEach P [] := by
  intro x past h
  cases suffix_nil.1 h

theorem atEach_cons : AtEach P (x :: past) ↔ P x past ∧ AtEach P past := by
  constructor
  · intro h
    exact ⟨h x past suffix_rfl,
      fun y past' hy => h y past' (hy.trans (suffix_cons x past))⟩
  · rintro ⟨hx, hpast⟩ y past' hy
    rcases suffix_cons_iff.1 hy with heq | hy
    · obtain ⟨rfl, rfl⟩ := List.cons.inj heq
      exact hx
    · exact hpast y past' hy

instance decidableAtEach (P : Connection × Action → List (Connection × Action) → Prop)
    [∀ x past, Decidable (P x past)] : (trace : List (Connection × Action)) →
      Decidable (AtEach P trace)
  | [] => .isTrue (atEach_nil P)
  | x :: past =>
    have := decidableAtEach P past
    decidable_of_iff (P x past ∧ AtEach P past) atEach_cons.symm

theorem atEach_step {Q : Connection → Action → Prop} {trace : List (Connection × Action)} :
    AtEach (fun x _ => Q x.1 x.2) trace ↔ ∀ x ∈ trace, Q x.1 x.2 := by
  induction trace with
  | nil => exact ⟨fun _ => by simp, fun _ => atEach_nil _⟩
  | cons x past ih => rw [atEach_cons, ih, forall_mem_cons]

/-- **Invariant rule with the past.** What every step that has `Q` preserves, a run keeps that has
`Q` at each step. -/
theorem Reaches.invariant_atEach {Q : Connection × Action → List (Connection × Action) → Prop}
    {I : Run → Prop} (hstep : ∀ r a, I r → Q (r.conn, a) r.trace → I (r.perform env a))
    (hI : I ⟨c, []⟩) (h : Reaches env ⟨c, []⟩ r) (hQ : AtEach Q r.trace) :
    I r := by
  let J (r : Run) : Prop := AtEach Q r.trace → I r
  have hkeep (r : Run) (a : Action) (hJ : J r) (_ : True) : J (r.perform env a) := by
    intro hall
    obtain ⟨ha, hpast⟩ := atEach_cons.1 (show AtEach Q ((r.conn, a) :: r.trace) from hall)
    exact hstep r a (hJ hpast) ha
  exact h.invariant (P := fun _ _ => True) hkeep (fun _ => hI) (fun _ _ => trivial) hQ

/-- **Step rule.** If under an invariant a step that has `Q` has `P` and keeps the invariant, then a
run that has `Q` at each step has `P` at each step. -/
theorem Reaches.atEach_imp {I : Run → Prop} (hstep : ∀ r a, I r → Q (r.conn, a) r.trace →
      P (r.conn, a) r.trace ∧ I (r.perform env a)) (hI : I ⟨c, []⟩) (h : Reaches env ⟨c, []⟩ r)
    (hQ : AtEach Q r.trace) : AtEach P r.trace := by
  refine (h.invariant_atEach (I := fun r => I r ∧ AtEach P r.trace) ?_ ⟨hI, atEach_nil P⟩ hQ).2
  rintro r a ⟨hr, hP⟩ ha
  obtain ⟨haP, hr'⟩ := hstep r a hr ha
  exact ⟨hr', atEach_cons.2 ⟨haP, hP⟩⟩

/-- **Exactness rule.** Let an invariant hold at the start and be kept by the steps that have `Q`.
If under the invariant a step has `P` exactly if it has `Q`, then a run has `P` at each step exactly
if it has `Q` at each step. -/
theorem atEach_congr
    {I : Run → Prop} (hiff : ∀ r a, I r → (P (r.conn, a) r.trace ↔ Q (r.conn, a) r.trace))
    (hkeep : ∀ r a, I r → Q (r.conn, a) r.trace → I (r.perform env a)) (hI : I ⟨c, []⟩)
    (events : List Event) :
    AtEach P (ofEvents env c events).trace ↔ AtEach Q (ofEvents env c events).trace := by
  have hrun : Reaches env ⟨c, []⟩ (ofEvents env c events) := reaches_ofEvents c events
  constructor
  · refine hrun.atEach_imp (fun r a hr hP => ?_) hI
    have hQ := (hiff r a hr).1 hP
    exact ⟨hQ, hkeep r a hr hQ⟩
  · exact hrun.atEach_imp (fun r a hr hQ => ⟨(hiff r a hr).2 hQ, hkeep r a hr hQ⟩) hI

/-- The exactness rule for a condition on the single steps. -/
theorem atEach_iff_forall {Q : Connection → Action → Prop} {I : Run → Prop}
    (hiff : ∀ r a, I r → (P (r.conn, a) r.trace ↔ Q r.conn a))
    (hkeep : ∀ r a, I r → Q r.conn a → I (r.perform env a)) (hI : I ⟨c, []⟩) (events : List Event) :
    AtEach P (ofEvents env c events).trace ↔
      ∀ x ∈ (ofEvents env c events).trace, Q x.1 x.2 :=
  (atEach_congr (Q := fun x _ => Q x.1 x.2) hiff hkeep hI events).trans atEach_step

end Run

end Spaznet.Quic
