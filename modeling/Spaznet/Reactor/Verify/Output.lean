import Spaznet.Reactor.Io
import Mathlib.Algebra.BigOperators.Group.List.Basic
import Mathlib.Algebra.Order.Ring.Int

/-!
# What is written and what is counted

Over a plain socket a connection refines the one that the dispatchers see, and nothing that is
written is lost, doubled or moved. The gauge of the context is the sum of what the connections hold
back, as long as none is destroyed open with bytes in its buffer: the destructor does not take them
off.
-/

namespace Spaznet.Reactor.Io

open List Wire OutputBuffer

variable {env : Env} {c : BufferedConnection}

namespace OutputBuffer

theorem pending_append (bytes : Bytes) (b : OutputBuffer) :
    (b.append bytes).pending = b.pending ++ bytes := by
  unfold append pending
  split
  next hnil => rw [hnil, append_nil]
  split
  next hle => rw [drop_eq_nil_of_le hle, nil_append, drop_zero]
  next hlt => exact drop_append_of_le_length (Nat.le_of_not_le hlt)

theorem pending_advance (b : OutputBuffer) (n : Nat) :
    pending { b with readPos := b.readPos + n } = b.pending.drop n := by
  rw [pending, pending, drop_drop]

theorem pending_advance_min (b : OutputBuffer) (n : Nat) :
    pending { b with readPos := b.readPos + min n b.pending.length } = b.pending.drop n := by
  rw [pending_advance, drop_eq_drop_iff, Nat.min_assoc, Nat.min_self]

end OutputBuffer

namespace BufferedConnection

/-! ## An invariant rule -/

section
variable {P : BufferedConnection → Prop} (hio : ∀ c io, P c → P { c with io })
  (harm : ∀ c, P c → P c.armIfWanted) (hcall : ∀ c k, P c → P (c.call env k))
  (hread : ∀ c cipher, P c → P (c.flushRead env cipher).2)

include hcall hread in
theorem afterRead_rule {next : BufferedConnection → BufferedConnection}
    (hnext : ∀ c, P c → P (next c)) (cipher : Bytes) (h : P c) :
    P (c.afterRead env cipher next) := by
  have hflushed := hread c cipher h
  unfold afterRead
  split
  · exact h
  cases hresult : c.flushRead env cipher with
  | mk result c' =>
    rw [hresult] at hflushed
    cases result with
    | error => exact hcall c' .close hflushed
    | flushed | wouldBlock => exact hnext c' hflushed

include hio harm hcall hread

theorem onReadable_rule (turns : List Turn) (c : BufferedConnection) (h : P c) :
    P (c.onReadable env turns) := by
  have hrearm (c : BufferedConnection) (h : P c) : P c.rearm := hio _ _ (harm c h)
  induction turns generalizing c with
  | nil =>
    unfold onReadable
    split
    · exact h
    · exact hrearm c h
  | cons turn turns ih =>
    cases turn with
    | ended => exact hcall c .close h
    | drained cipher => exact afterRead_rule hcall hread hrearm cipher h
    | fed cipher => exact afterRead_rule hcall hread ih cipher h
    | data cipher calls =>
      refine afterRead_rule hcall hread (fun c h => ?_) cipher h
      have hcalls : P (calls.foldl (call env) c) := Machine.run_induction hcall h calls
      dsimp only
      split
      · exact hcalls
      · exact ih _ (harm _ hcalls)

/-- **Invariant rule.** What the registrations do not matter to, and what calls, the flush of a read
and a writable event keep, every event keeps. -/
theorem step_rule (hwritable : ∀ c turns, (∀ c, P c → P (c.onReadable env turns)) → P c →
      P (c.onWritable env turns))
    (h : P c) (e : Event) : P (step env c e) := by
  cases e with
  | call k => exact hcall c k h
  | readable turns => exact onReadable_rule hio harm hcall hread turns c h
  | writable turns => exact hwritable c turns (onReadable_rule hio harm hcall hread turns) h
  | error => exact hcall c .close h
  | removeIo => exact hio c _ h

end

/-! ## What the dispatchers see -/

def seen (c : BufferedConnection) : Reactor.BufferedConnection where
  closed := c.closed
  closesAfterFlush := c.closesAfterFlush
  writeInterestArmed := c.writeInterestArmed
  pending := c.output.pending
  reported := c.reported
  sends := c.wire.sends
  sent := c.wire.sent
  written := c.written

/-- A plain connection is seen as this one. -/
structure Shows (c : BufferedConnection) (s : Reactor.BufferedConnection) : Prop where
  plain : c.tls = none
  eq : c.seen = s

theorem seen_of_pending_nil (hnil : c.output.pending = []) :
    c.seen = seen { c with output := {} } := by
  unfold seen
  rw [hnil]
  rfl

/-- The two loops of `try_flush` take the same turns. -/
theorem tryFlushLoop_seen (socket : Socket) (c : BufferedConnection)
    (h : c.output.pending.length ≤ fuel) :
    Reactor.BufferedConnection.tryFlushLoop socket fuel c.seen =
      ((c.output.drain (offer socket) (fuel + 1) c.wire).1, seen { c with
        output := (c.output.drain (offer socket) (fuel + 1) c.wire).2.1
        wire := (c.output.drain (offer socket) (fuel + 1) c.wire).2.2 }) := by
  induction fuel generalizing c with
  | zero =>
    have hnil := length_eq_zero_iff.mp (Nat.le_zero.mp h)
    unfold drain
    rw [if_pos hnil]
    exact congrArg (Prod.mk _) (seen_of_pending_nil hnil)
  | succ fuel ih =>
    unfold drain Reactor.BufferedConnection.tryFlushLoop
    by_cases hnil : c.output.pending = []
    · rw [if_pos hnil, if_pos (show c.seen.pending = [] from hnil)]
      exact congrArg (Prod.mk _) (seen_of_pending_nil hnil)
    rw [if_neg hnil, if_neg (show c.seen.pending ≠ [] from hnil)]
    have hseen : socket c.seen.sends c.seen.pending.length =
      socket c.wire.sends c.output.pending.length := rfl
    unfold offer
    rw [hseen]
    cases socket c.wire.sends c.output.pending.length with
    | wouldBlock | error => rfl
    | accepted n =>
      cases n with
      | zero => rfl
      | succ n =>
        let moved : BufferedConnection := { c with
          output.readPos := c.output.readPos + min (n + 1) c.output.pending.length
          wire := ⟨c.wire.sends + 1, c.wire.sent ++ c.output.pending.take (n + 1)⟩ }
        have hpending : moved.output.pending = c.output.pending.drop (n + 1) :=
          pending_advance_min c.output (n + 1)
        have hmoved : moved.seen = { c.seen with
            sends := c.seen.sends + 1
            sent := c.seen.sent ++ c.seen.pending.take (n + 1)
            pending := c.seen.pending.drop (n + 1) } := by
          unfold seen
          rw [hpending]
        refine (congrArg _ hmoved.symm).trans (ih moved ?_)
        rw [hpending, length_drop]
        omega

theorem Shows.ite [Decidable p] (ht : p → Shows a x) (he : ¬ p → Shows b y) :
    Shows (if p then a else b) (if p then x else y) := by
  split
  next h => exact ht h
  next h => exact he h

section
variable {s : Reactor.BufferedConnection} (h : Shows c s)
include h

theorem Shows.flushOutput : (c.flushOutput env).1 = (s.tryFlush env.socket).1 ∧
    Shows (c.flushOutput env).2 (s.tryFlush env.socket).2 := by
  obtain ⟨hplain, rfl⟩ := h
  have hloop := tryFlushLoop_seen env.socket c (Nat.le_refl _)
  unfold BufferedConnection.flushOutput
  rw [hplain]
  exact ⟨congrArg Prod.fst hloop.symm, rfl, congrArg Prod.snd hloop.symm⟩

theorem Shows.close : Shows (c.close env) s.close := by
  obtain ⟨hplain, rfl⟩ := h
  unfold BufferedConnection.close
  rw [hplain]
  exact .ite (fun _ => ⟨hplain, rfl⟩) fun _ => ⟨rfl, rfl⟩

theorem Shows.closeAfterFlush : Shows (c.closeAfterFlush env) s.closeAfterFlush := by
  have hclose : Shows (c.close env) s.close := h.close
  obtain ⟨hplain, rfl⟩ := h
  exact .ite (fun _ => ⟨hplain, rfl⟩) fun _ => .ite (fun _ => hclose) fun _ => ⟨hplain, rfl⟩

end

theorem Shows.afterFlush {x : FlushResult × BufferedConnection}
    {y : FlushResult × Reactor.BufferedConnection} (h : x.1 = y.1 ∧ Shows x.2 y.2) (before : Nat) :
    Shows (afterFlush env before x) (Reactor.BufferedConnection.afterFlush before y) := by
  obtain ⟨result, c⟩ := x
  obtain ⟨_, s⟩ := y
  obtain ⟨rfl, hplain, rfl⟩ := h
  cases result with
  | error => exact Shows.close ⟨hplain, rfl⟩
  | flushed => exact ⟨hplain, rfl⟩
  | wouldBlock =>
    rw [BufferedConnection.afterFlush]
    split
    next harmed =>
      refine ⟨hplain, ?_⟩
      simp only [Reactor.BufferedConnection.afterFlush, ← harmed]
      rfl
    · exact ⟨hplain, rfl⟩

theorem Shows.write (h : Shows c s) (data : Bytes) :
    Shows (c.write env data) (s.write env.socket data) := by
  obtain ⟨hplain, rfl⟩ := h
  have hqueued : Shows (c.queue data) { c.seen with
      pending := c.seen.pending ++ data, written := c.seen.written ++ [data] } := by
    refine ⟨hplain, ?_⟩
    unfold queue seen
    rw [pending_append]
  refine .ite (fun _ => ⟨hplain, rfl⟩) fun _ => ?_
  by_cases hnil : c.output.pending = []
  · rw [if_pos hnil, if_pos (show c.seen.pending = [] from hnil)]
    exact Shows.afterFlush hqueued.flushOutput _
  · rw [if_neg hnil, if_neg (show c.seen.pending ≠ [] from hnil)]
    exact Shows.afterFlush (x := (.wouldBlock, _)) (y := (.wouldBlock, _)) ⟨rfl, hqueued⟩ _

theorem Shows.onWritable (h : Shows c s) (turns : List Turn) :
    Shows (c.onWritable env turns) (s.onWritable env.socket) := by
  have hflush : (c.flushOutput env).1 = _ ∧ _ := h.flushOutput
  obtain ⟨hplain, rfl⟩ := h
  refine .ite (fun _ => ⟨hplain, rfl⟩) fun _ => ?_
  generalize c.flushOutput env = x at hflush ⊢
  generalize c.seen.tryFlush env.socket = y at hflush ⊢
  obtain ⟨result, c'⟩ := x
  obtain ⟨_, s'⟩ := y
  obtain ⟨rfl, hplain', rfl⟩ := hflush
  cases result with
  | error => exact Shows.close ⟨hplain', rfl⟩
  | flushed =>
    refine .ite (fun _ => Shows.close ⟨hplain', rfl⟩) fun _ => ?_
    have hnone : c'.tls = none := hplain'
    rw [if_neg (by simp [reportBufferedDelta, hnone])]
    exact ⟨hplain', rfl⟩
  | wouldBlock => exact ⟨hplain', rfl⟩

/-- The states that the operations of the dispatchers lead to. -/
inductive Reached (socket : Socket) : Reactor.BufferedConnection → Prop where
  | new : Reached socket {}
  | write (data : Bytes) : Reached socket s → Reached socket (s.write socket data)
  | close : Reached socket s → Reached socket s.close
  | closeAfterFlush : Reached socket s → Reached socket s.closeAfterFlush
  | onWritable : Reached socket s → Reached socket (s.onWritable socket)

theorem Reached.intact (h : Reached socket s) : s.Intact := by
  induction h with
  | new => rfl
  | write data _ ih => exact Reactor.BufferedConnection.intact_write ih data
  | close _ ih => exact Reactor.BufferedConnection.intact_close.mpr ih
  | closeAfterFlush _ ih => exact Reactor.BufferedConnection.intact_closeAfterFlush.mpr ih
  | onWritable _ ih => exact Reactor.BufferedConnection.keeps_onWritable.intact_iff.mpr ih

def Refines (env : Env) (c : BufferedConnection) : Prop := ∃ s, Shows c s ∧ Reached env.socket s

/-- **Refinement.** Over a plain socket, a connection is after every event where operations have led
the one that the dispatchers see. -/
theorem Refines.step (h : Refines env c) (e : Event) : Refines env (step env c e) := by
  refine step_rule ?_ ?_ ?_ ?_ ?_ h e
  · rintro c io ⟨s, hs, hr⟩
    exact ⟨s, ⟨hs.plain, hs.eq⟩, hr⟩
  · rintro c ⟨s, hs, hr⟩
    have hany : c.tls.any (·.wantsWrite) = false := by
      rw [hs.plain]
      rfl
    rw [armIfWanted, hany, Bool.or_false]
    exact ⟨s, hs, hr⟩
  · rintro c k ⟨s, hs, hr⟩
    cases k with
    | write data => exact ⟨_, hs.write data, hr.write data⟩
    | close => exact ⟨_, hs.close, hr.close⟩
    | closeAfterFlush => exact ⟨_, hs.closeAfterFlush, hr.closeAfterFlush⟩
  · rintro c cipher ⟨s, hs, hr⟩
    unfold flushRead
    rw [hs.plain]
    exact ⟨s, hs, hr⟩
  · rintro c turns - ⟨s, hs, hr⟩
    exact ⟨_, hs.onWritable turns, hr.onWritable⟩

/-! ## Nothing is lost -/

/-- The connection has reported what it holds back. -/
def Balanced (c : BufferedConnection) : Prop :=
  c.reported = if c.closed then 0 else (c.output.pending.length : Int)

theorem flushOutput_frame (env : Env) (c : BufferedConnection) :
    (c.flushOutput env).2.reported = c.reported ∧ (c.flushOutput env).2.closed = c.closed := by
  unfold flushOutput
  repeat' split
  all_goals exact ⟨rfl, rfl⟩

theorem Balanced.close (h : Balanced c) : Balanced (c.close env) := by
  unfold BufferedConnection.close
  split
  · exact h
  · simp_all [Balanced]

theorem Balanced.afterFlush {x : FlushResult × BufferedConnection}
    (h : Balanced (x.2.reportBufferedDelta before)) : Balanced (afterFlush env before x) := by
  obtain ⟨result, c⟩ := x
  cases result with
  | error => exact h.close
  | flushed => exact h
  | wouldBlock =>
    rw [BufferedConnection.afterFlush]
    split <;> exact h

theorem Balanced.call (h : Balanced c) (k : Call) : Balanced (c.call env k) := by
  cases k with
  | close => exact h.close
  | closeAfterFlush =>
    simp only [BufferedConnection.call, closeAfterFlush]
    split
    · exact h
    split
    · exact h.close
    · exact h
  | write data =>
    simp only [BufferedConnection.call, write]
    split
    · exact h
    next hopen =>
      have hframe := (c.queue data).flushOutput_frame env
      refine .afterFlush ?_
      split
      all_goals simp_all [Balanced, reportBufferedDelta, queue]

theorem Balanced.step (h : Balanced c) (e : Event) : Balanced (step env c e) := by
  refine step_rule (fun _ _ h => h) (fun _ h => h) (fun _ k h => h.call k) (fun c cipher h => ?_)
    (fun c turns hreadable h => ?_) h e
  · unfold flushRead
    split <;> exact h
  · simp only [onWritable]
    split
    · exact h
    next hopen =>
    have hflushed : Balanced ((c.flushOutput env).2.reportBufferedDelta
        c.output.pending.length) := by
      have hframe := c.flushOutput_frame env
      simp_all [Balanced, reportBufferedDelta]
    split
    · exact hflushed.close
    · split
      · exact hflushed.close
      split
      · exact hreadable _ hflushed
      · exact hflushed
    · exact hflushed

end BufferedConnection

/-- The connections of one context, each with what surrounds it, and the gauge. A connection that was
destroyed leaves its place empty. -/
structure Gauged where
  bytesBuffered : Int := 0
  connections : List (Env × Option BufferedConnection) := []

namespace Gauged

inductive Event where
  | accept (env : Env) (fd : Platform.Fd) (io : Platform.IOContext Unit) (tls : Option TlsStream)
  | on (i : Nat) (event : BufferedConnection.Event)
  | destroy (i : Nat)

/-- An event reports its changes to the gauge, which counts modulo `2 ^ 64`; a destructor reports
nothing. -/
def step (g : Gauged) : Event → Gauged
  | .accept env fd io tls => { g with connections := g.connections ++ [(env, some { fd, io, tls })] }
  | .on i event => match g.connections[i]? with
    | some (env, some c) =>
      let c' := BufferedConnection.step env c event
      { bytesBuffered := (g.bytesBuffered + (c'.reported - c.reported)) % 2 ^ 64
        connections := g.connections.set i (env, some c') }
    | _ => g
  | .destroy i => match g.connections[i]? with
    | some (env, some _) => { g with connections := g.connections.set i (env, none) }
    | _ => g

def held (x : Env × Option BufferedConnection) : Int :=
  match x.2 with
  | some c => if c.closed then 0 else c.output.pending.length
  | none => 0

/-- No connection is destroyed open with bytes in its buffer. -/
def Drained (g : Gauged) (e : Event) : Prop :=
  ∀ i, e = .destroy i → ∀ env c, g.connections[i]? = some (env, some c) →
    c.closed = true ∨ c.output.pending = []

structure Inv (g : Gauged) : Prop where
  gauge : g.bytesBuffered = (g.connections.map held).sum % 2 ^ 64
  balanced : ∀ x ∈ g.connections, ∀ c ∈ x.2, c.Balanced

theorem sum_set {xs : List (Env × Option BufferedConnection)} (hx : xs[i]? = some x)
    (y : Env × Option BufferedConnection) :
    ((xs.set i y).map held).sum = (xs.map held).sum + (held y - held x) := by
  obtain ⟨hi, rfl⟩ := List.getElem?_eq_some_iff.mp hx
  rw [map_set, sum_set', dif_pos (by simpa using hi), getElem_map]
  omega

theorem Inv.step (h : Inv g) (e : Event) (he : Drained g e) : Inv (step g e) := by
  cases e with
  | accept env fd io tls =>
    refine ⟨?_, forall_mem_append.mpr ⟨h.balanced, by simp [BufferedConnection.Balanced,
      pending]⟩⟩
    simp [Gauged.step, h.gauge, held, pending]
  | on i event =>
    simp only [Gauged.step]
    split
    next env c hx =>
      have hc : c.Balanced := h.balanced _ (mem_of_getElem? hx) c rfl
      have hc' : (BufferedConnection.step env c event).Balanced := hc.step event
      refine ⟨?_, fun x hmem => ?_⟩
      · rw [sum_set hx, h.gauge, Int.emod_add_emod]
        exact congrArg₂ (fun new old => (_ + (new - old)) % 2 ^ 64) hc' hc
      · rcases mem_or_eq_of_mem_set hmem with hold | rfl
        · exact h.balanced x hold
        · rintro _ ⟨⟩
          exact hc'
    · exact h
  | destroy i =>
    simp only [Gauged.step]
    split
    next env c hx =>
      refine ⟨?_, fun x hmem => ?_⟩
      · have hzero : held (env, some c) = 0 := by
          rcases he i rfl env c hx with hc | hc <;> simp [held, hc]
        rw [sum_set hx, hzero, h.gauge]
        simp [held]
      · rcases mem_or_eq_of_mem_set hmem with hold | rfl
        · exact h.balanced x hold
        · nofun
    · exact h

/-- **The gauge of buffered bytes** is the sum over the open connections, as long as none is
destroyed open with bytes in its buffer. -/
theorem bytesBuffered_eq (events : List Event) (h : Machine.AllSteps step Drained {} events) :
    (Machine.run step {} events).bytesBuffered =
      ((Machine.run step {} events).connections.map held).sum % 2 ^ 64 :=
  (Machine.run_invariant (I := Inv) (fun _ e hg he => hg.step e he) ⟨rfl, by simp⟩ h).gauge

def stuckByte : List Event :=
  [.accept { socket := fun _ _ => .wouldBlock } 5 {} none, .on 0 (.call (.write [1]))]

theorem bytesBuffered_eq_stuckByte : Machine.AllSteps step Drained {} stuckByte ∧
    (Machine.run step {} stuckByte).bytesBuffered =
      ((Machine.run step {} stuckByte).connections.map held).sum % 2 ^ 64 :=
  have h : Machine.AllSteps step Drained {} stuckByte := ⟨nofun, nofun, trivial⟩
  ⟨h, bytesBuffered_eq stuckByte h⟩

/-- The connection is taken off the context and destroyed, and its byte stays counted. -/
def abandonedByte : List Event := stuckByte ++ [.on 0 .removeIo, .destroy 0]

theorem bytesBuffered_ne : (Machine.run step {} abandonedByte).bytesBuffered = 1 ∧
    ((Machine.run step {} abandonedByte).connections.map held).sum = 0 := by
  decide

end Gauged

end Spaznet.Reactor.Io
