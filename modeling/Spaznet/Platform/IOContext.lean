import Spaznet.Platform.Poll
import Mathlib.Data.Nat.Bitwise

/-!
# Registrations of an IOContext

`set_io_handler`, `remove_io` and `process_io_events`, each of which is one critical section. The
platform layer is what it stores for a descriptor. Registrations are numbered as they are made, and
every event and every handler keeps the number of its registration, which the code does not have: it
has the generation, a 32-bit counter that leaves out 0.
-/

namespace Spaznet.Platform

open List Function

inductive Direction where
  | read
  | write
  deriving DecidableEq

def Events.has (events : Events) : Direction → Bool
  | .read => events.read
  | .write => events.write

structure Installed (H : Type) where
  handler : H
  registration : Nat

structure PendingIo (H : Type) where
  slot : Direction → Option (Installed H) := fun _ => none
  generation : Nat := 0
  /-- The registration that wrote the entry last. -/
  registration : Nat := 0

def PendingIo.interest (pending : PendingIo H) : Events :=
  ⟨(pending.slot .read).isSome, (pending.slot .write).isSome⟩

/-- A call of a handler, with the registration its event was produced for. -/
structure Firing (H : Type) where
  fd : Fd
  direction : Direction
  installed : Installed H
  producedFor : Nat

structure IOContext (H : Type) where
  pendingIo : Fd → Option (PendingIo H) := fun _ => none
  nextGeneration : Nat := 1
  /-- The token and the interest that the platform layer stores. -/
  platform : Fd → Option (Nat × Events) := fun _ => none
  registrations : Nat := 0
  fired : List (Firing H) := []

def encodeToken (generation : Nat) (fd : Fd) : Nat := generation <<< 32 ||| fd.toNat

def decodeToken (token : Nat) : Nat × Fd := (token >>> 32, .ofNat (token % 2 ^ 32))

theorem encodeToken_eq (generation : Nat) (fd : Fd) :
    encodeToken generation fd = generation * 2 ^ 32 + fd.toNat := by
  rw [encodeToken, ← Nat.shiftLeft_add_eq_or_of_lt fd.toNat_lt, Nat.shiftLeft_eq]

theorem decodeToken_encodeToken (generation : Nat) (fd : Fd) :
    decodeToken (encodeToken generation fd) = (generation, fd) := by
  have hlt := fd.toNat_lt
  have hmod : encodeToken generation fd % 2 ^ 32 = fd.toNat := by rw [encodeToken_eq]; omega
  rw [decodeToken, hmod, UInt32.ofNat_toNat, Nat.shiftRight_eq_div_pow, encodeToken_eq]
  congr 1
  omega

structure Produced where
  events : Events
  token : Nat
  registration : Nat
  /-- How many registrations had been made by then. -/
  reportedAt : Nat

/-- The handlers that the event fires, the reader first. -/
def PendingIo.fires (pending : PendingIo H) (fd : Fd) (e : Produced) : List (Firing H) :=
  [Direction.read, .write].filterMap fun d =>
    if e.events.has d then (pending.slot d).map fun i => ⟨fd, d, i, e.registration⟩ else none

namespace IOContext

def setIoHandler (fd : Fd) (events : Events) (handler : Option H) (ctx : IOContext H) :
    IOContext H :=
  let registration := ctx.registrations + 1
  -- `fetch_add` once more if it returned the generation of the wakeup pipe
  let generation := if ctx.nextGeneration = 0 then 1 else ctx.nextGeneration
  let pending := (ctx.pendingIo fd).getD {}
  let pending : PendingIo H :=
    { slot := fun d =>
        if events.has d then (handler.map (⟨·, registration⟩)).or (pending.slot d)
        else pending.slot d
      generation, registration }
  { ctx with
      pendingIo := update ctx.pendingIo fd (some pending)
      nextGeneration := (generation + 1) % 2 ^ 32
      platform := update ctx.platform fd (some (encodeToken generation fd, pending.interest))
      registrations := registration }

def removeIo (fd : Fd) (ctx : IOContext H) : IOContext H :=
  { ctx with
      pendingIo := update ctx.pendingIo fd none
      platform := update ctx.platform fd none }

/-- The handlers are taken from their slots, and the interest follows. -/
def fire (fd : Fd) (pending : PendingIo H) (e : Produced) (ctx : IOContext H) : IOContext H :=
  let left := { pending with slot := fun d => if e.events.has d then none else pending.slot d }
  { ctx with
      pendingIo := update ctx.pendingIo fd (some left)
      platform := update ctx.platform fd
        (some (encodeToken pending.generation fd, left.interest))
      fired := ctx.fired ++ pending.fires fd e }

/-- One event of the loop of `process_io_events`. -/
def processIoEvent (ctx : IOContext H) (e : Produced) : IOContext H :=
  if e.token = 0 then ctx
  else match ctx.pendingIo (decodeToken e.token).2 with
    | none => ctx
    | some pending =>
      if pending.generation ≠ (decodeToken e.token).1 ∨ pending.fires (decodeToken e.token).2 e = []
      then ctx
      else ctx.fire (decodeToken e.token).2 pending e

/-- The context with the events that the platform layer has reported so far. -/
structure World (H : Type) where
  ctx : IOContext H := {}
  produced : List Produced := []

inductive Step (H : Type) where
  | register (fd : Fd) (events : Events) (handler : Option H)
  | remove (fd : Fd)
  /-- The platform layer reports the token it has stored. -/
  | ready (fd : Fd) (events : Events)
  /-- `process_io_events` is handed reported events, given by their places in the report. -/
  | process (picks : List Nat)

def picked (w : World H) (picks : List Nat) : List Produced := picks.filterMap (w.produced[·]?)

def step (w : World H) : Step H → World H
  | .register fd events handler => { w with ctx := w.ctx.setIoHandler fd events handler }
  | .remove fd => { w with ctx := w.ctx.removeIo fd }
  | .ready fd events => match w.ctx.platform fd, w.ctx.pendingIo fd with
    | some (token, _), some pending =>
      { w with produced := w.produced ++
          [⟨events, token, pending.registration, w.ctx.registrations⟩] }
    | _, _ => w
  | .process picks => { w with ctx := (picked w picks).foldl processIoEvent w.ctx }

def kGenerations : Nat := 2 ^ 32 - 1

def generationOf (registration : Nat) : Nat := (registration - 1) % kGenerations + 1

/-- What one entry, its platform record and the calls made so far have to do with each other. -/
structure Entry (ctx : IOContext H) (fd : Fd) (pending : PendingIo H) : Prop where
  generation : pending.generation = generationOf pending.registration
  pos : 0 < pending.registration
  le : pending.registration ≤ ctx.registrations
  platform : ctx.platform fd = some (encodeToken pending.generation fd, pending.interest)
  slot : ∀ d i, pending.slot d = some i → i.registration ≤ pending.registration ∧
    ∀ f ∈ ctx.fired, f.fd = fd → f.direction = d → f.installed.registration ≠ i.registration

structure Inv (ctx : IOContext H) : Prop where
  next : (if ctx.nextGeneration = 0 then 1 else ctx.nextGeneration) =
    generationOf (ctx.registrations + 1)
  entry : ∀ fd pending, ctx.pendingIo fd = some pending → Entry ctx fd pending
  fired : ∀ f ∈ ctx.fired,
    f.installed.registration ≤ f.producedFor ∧ f.installed.registration ≤ ctx.registrations
  once : (ctx.fired.map fun f => (f.fd, f.direction, f.installed.registration)).Nodup

/-- The event carries the token of its registration, which is not later than the entry's. -/
def Genuine (ctx : IOContext H) (e : Produced) : Prop :=
  0 < e.registration ∧ e.registration ≤ ctx.registrations ∧
    ∃ fd, e.token = encodeToken (generationOf e.registration) fd ∧
      ∀ pending, ctx.pendingIo fd = some pending → e.registration ≤ pending.registration

variable {H : Type} {ctx : IOContext H} {e : Produced} {pending : PendingIo H} {fd : Fd}

theorem generationOf_succ (hr : 0 < r) :
    (if (generationOf r + 1) % 2 ^ 32 = 0 then 1 else (generationOf r + 1) % 2 ^ 32) =
      generationOf (r + 1) := by
  by_cases hwrap : (generationOf r + 1) % 2 ^ 32 = 0
  · rw [if_pos hwrap]
    unfold generationOf kGenerations at *
    omega
  · rw [if_neg hwrap]
    unfold generationOf kGenerations at *
    omega

theorem generationOf_inj (hr : 0 < r) (hle : r ≤ r') (hlt : r' < r + kGenerations)
    (h : generationOf r = generationOf r') : r = r' := by
  simp only [generationOf, kGenerations] at h hlt
  omega

theorem inv_init : Inv ({} : IOContext H) := ⟨rfl, nofun, nofun, .nil⟩

theorem mem_fires (hf : f ∈ pending.fires fd e) :
    e.events.has f.direction = true ∧ f.fd = fd ∧ f.producedFor = e.registration ∧
      pending.slot f.direction = some f.installed := by
  obtain ⟨d, -, hd⟩ := mem_filterMap.mp hf
  split at hd
  next hhas =>
    obtain ⟨i, hi, rfl⟩ := Option.map_eq_some_iff.mp hd
    exact ⟨hhas, rfl, rfl, hi⟩
  · cases hd

theorem nodup_fires (pending : PendingIo H) (fd : Fd) (e : Produced) :
    ((pending.fires fd e).map Firing.direction).Nodup := by
  cases hr : e.events.has .read <;> cases hw : e.events.has .write <;>
    cases hpr : pending.slot .read <;> cases hpw : pending.slot .write <;>
    simp [PendingIo.fires, hr, hw, hpr, hpw]

theorem Entry.mono (h : Entry ctx fd pending)
    (hle : ctx.registrations ≤ ctx'.registrations) (hplatform : ctx'.platform fd = ctx.platform fd)
    (hfired : ∀ f ∈ ctx'.fired, f.fd = fd → f ∈ ctx.fired) : Entry ctx' fd pending :=
  ⟨h.generation, h.pos, h.le.trans hle, hplatform.trans h.platform, fun d i hi =>
    ⟨(h.slot d i hi).1, fun f hf hfd => (h.slot d i hi).2 f (hfired f hf hfd) hfd⟩⟩

theorem inv_setIoHandler (h : Inv ctx) (fd : Fd) (events : Events) (handler : Option H) :
    Inv (ctx.setIoHandler fd events handler) := by
  have hfired := h.fired
  refine ⟨?_, fun fd' pending hp => ?_, fun f hf => ⟨(hfired f hf).1, Nat.le_succ_of_le
    (hfired f hf).2⟩, h.once⟩
  · simp only [setIoHandler, h.next]
    exact generationOf_succ (Nat.succ_pos _)
  by_cases hfd : fd' = fd
  · subst hfd
    simp only [setIoHandler, update_self, Option.some.injEq] at hp
    subst hp
    refine ⟨h.next, Nat.succ_pos _, le_rfl, by simp [setIoHandler], fun d i hi => ?_⟩
    -- the handler is the new one, which has not fired yet, or was there before
    cases hpending : ctx.pendingIo fd' with
    | none => cases handler <;> grind [setIoHandler]
    | some pending =>
      have hle := (h.entry fd' pending hpending).le
      have hslot := (h.entry fd' pending hpending).slot d
      cases handler <;> grind [setIoHandler]
  · simp only [setIoHandler, update_of_ne hfd] at hp
    exact (h.entry fd' pending hp).mono (Nat.le_succ _) (by simp [setIoHandler, hfd])
      fun f hf _ => hf

theorem inv_removeIo (h : Inv ctx) (fd : Fd) : Inv (ctx.removeIo fd) := by
  refine ⟨h.next, fun fd' pending hp => ?_, h.fired, h.once⟩
  by_cases hfd : fd' = fd
  · simp [hfd, removeIo] at hp
  · simp only [removeIo, update_of_ne hfd] at hp
    exact (h.entry fd' pending hp).mono le_rfl (by simp [removeIo, hfd]) fun f hf _ => hf

theorem processIoEvent_cases (ctx : IOContext H) (e : Produced) :
    ctx.processIoEvent e = ctx ∨ ∃ pending, ctx.pendingIo (decodeToken e.token).2 = some pending ∧
      pending.generation = (decodeToken e.token).1 ∧
      ctx.processIoEvent e = ctx.fire (decodeToken e.token).2 pending e := by
  unfold processIoEvent
  split
  · exact .inl rfl
  split
  · exact .inl rfl
  next pending hp =>
    split
    · exact .inl rfl
    next hfires => exact .inr ⟨pending, hp, not_not.mp fun hne => hfires (.inl hne), rfl⟩

/-- What an event of the entry's own registration fires was installed for it or before it. -/
theorem inv_fire (h : Inv ctx) (hp : ctx.pendingIo fd = some pending)
    (hsame : e.registration = pending.registration) : Inv (ctx.fire fd pending e) := by
  have hentry := h.entry fd pending hp
  have hslot := hentry.slot
  refine ⟨h.next, fun fd' pending' hp' => ?_, fun f hf => ?_, ?_⟩
  · by_cases hfd : fd' = fd
    · subst hfd
      simp only [fire, update_self, Option.some.injEq] at hp'
      subst hp'
      exact ⟨hentry.generation, hentry.pos, hentry.le, by simp [fire], by grind [fire, → mem_fires]⟩
    · simp only [fire, update_of_ne hfd] at hp'
      exact (h.entry fd' pending' hp').mono le_rfl (by simp [fire, hfd]) (by grind [fire, → mem_fires])
  · rcases mem_append.mp hf with hold | hnew
    · exact h.fired f hold
    · obtain ⟨-, -, hfor, hin⟩ := mem_fires hnew
      have hreg := (hslot _ _ hin).1
      exact ⟨by omega, hreg.trans hentry.le⟩
  · have hdirs := nodup_fires pending fd e
    rw [List.Nodup, pairwise_map] at hdirs
    rw [fire, map_append]
    refine nodup_append.mpr ⟨h.once, ?_, by grind [→ mem_fires]⟩
    rw [List.Nodup, pairwise_map]
    exact hdirs.imp fun hne heq => hne (congrArg (·.2.1) heq)

/-- The generations of a genuine event and of the entry are those of one registration. -/
theorem inv_processIoEvent (h : Inv ctx) (he : Genuine ctx e)
    (htime : ctx.registrations < e.registration + kGenerations) : Inv (ctx.processIoEvent e) := by
  obtain ⟨hpos, -, fd, htoken, hlater⟩ := he
  rcases ctx.processIoEvent_cases e with heq | ⟨pending, hp, hgen, heq⟩
  · rwa [heq]
  rw [htoken, decodeToken_encodeToken] at hp hgen
  rw [heq, htoken, decodeToken_encodeToken]
  have hentry := h.entry fd pending hp
  have hle := hentry.le
  exact inv_fire h hp (generationOf_inj hpos (hlater pending hp) (by omega)
    (hgen.symm.trans hentry.generation))

theorem registration_processIoEvent (hp : (ctx.processIoEvent e).pendingIo fd = some pending) :
    ∃ old, ctx.pendingIo fd = some old ∧ old.registration = pending.registration := by
  rcases ctx.processIoEvent_cases e with heq | ⟨old, hold, -, heq⟩
  · exact ⟨pending, heq ▸ hp, rfl⟩
  rw [heq] at hp
  by_cases hfd : fd = (decodeToken e.token).2
  · subst hfd
    simp only [fire, update_self, Option.some.injEq] at hp
    exact ⟨old, hold, hp ▸ rfl⟩
  · exact ⟨pending, by simpa [fire, update_of_ne hfd] using hp, rfl⟩

theorem registrations_processIoEvent (ctx : IOContext H) (e : Produced) :
    (ctx.processIoEvent e).registrations = ctx.registrations := by
  rcases ctx.processIoEvent_cases e with heq | ⟨old, -, -, heq⟩ <;> rw [heq]
  rfl

theorem Genuine.mono {ctx' : IOContext H} (h : Genuine ctx e)
    (hle : ctx.registrations ≤ ctx'.registrations)
    (hentry : ∀ fd pending, ctx'.pendingIo fd = some pending →
      (∃ old, ctx.pendingIo fd = some old ∧ old.registration = pending.registration) ∨
        ctx.registrations ≤ pending.registration) : Genuine ctx' e := by
  obtain ⟨hpos, hreg, fd, htoken, hlater⟩ := h
  refine ⟨hpos, hreg.trans hle, fd, htoken, fun pending hp => ?_⟩
  rcases hentry fd pending hp with ⟨old, hold, heq⟩ | hnew
  · exact heq ▸ hlater old hold
  · exact hreg.trans hnew

structure WorldInv (w : World H) : Prop where
  ctx : Inv w.ctx
  genuine : ∀ e ∈ w.produced, Genuine w.ctx e

/-- Fewer registrations than there are generations lie between the registration an event was
produced for and its processing. -/
def Timely (w : World H) : Step H → Prop
  | .process picks => ∀ e ∈ picked w picks, w.ctx.registrations < e.registration + kGenerations
  | _ => True

theorem worldInv_process (evts : List Produced) (h : Inv ctx) (hgen : ∀ e ∈ evts, Genuine ctx e)
    (htime : ∀ e ∈ evts, ctx.registrations < e.registration + kGenerations) {all : List Produced}
    (hall : ∀ e ∈ all, Genuine ctx e) : WorldInv ⟨evts.foldl processIoEvent ctx, all⟩ := by
  induction evts generalizing ctx with
  | nil => exact ⟨h, hall⟩
  | cons e evts ih =>
    have hmono {e'} (he' : Genuine ctx e') : Genuine (ctx.processIoEvent e) e' :=
      he'.mono (registrations_processIoEvent ctx e).ge fun _ _ hp =>
        .inl (registration_processIoEvent hp)
    rw [forall_mem_cons] at hgen htime
    refine ih (inv_processIoEvent h hgen.1 htime.1) (fun e' he' => hmono (hgen.2 e' he')) ?_
      fun e' he' => hmono (hall e' he')
    rw [registrations_processIoEvent]
    exact htime.2

theorem WorldInv.step (h : WorldInv w) (a : Step H) (ha : Timely w a) : WorldInv (step w a) := by
  cases a with
  | register fd events handler =>
    refine ⟨inv_setIoHandler h.ctx fd events handler, fun e he => (h.genuine e he).mono
      (Nat.le_succ _) fun fd' pending hp => ?_⟩
    by_cases hfd : fd' = fd <;> simp [IOContext.step, setIoHandler, hfd] at hp
    · exact .inr (hp ▸ Nat.le_succ _)
    · exact .inl ⟨pending, hp, rfl⟩
  | remove fd =>
    refine ⟨inv_removeIo h.ctx fd, fun e he => (h.genuine e he).mono le_rfl fun fd' pending hp => ?_⟩
    by_cases hfd : fd' = fd <;> simp [IOContext.step, removeIo, hfd] at hp
    exact .inl ⟨pending, hp, rfl⟩
  | ready fd events =>
    simp only [IOContext.step]
    split
    next token _ pending hplatform hp =>
      have hentry := h.ctx.entry fd pending hp
      rw [hentry.platform, hentry.generation] at hplatform
      refine ⟨h.ctx, forall_mem_append.mpr ⟨h.genuine, forall_mem_singleton.mpr
        ⟨hentry.pos, hentry.le, fd, ?_, fun pending' hp' => ?_⟩⟩⟩
      · exact (congrArg Prod.fst (Option.some.inj hplatform)).symm
      · cases hp.symm.trans hp'
        exact le_rfl
    · exact h
  | process picks =>
    refine worldInv_process _ h.ctx (fun e he => h.genuine e ?_) ha h.genuine
    obtain ⟨n, -, hn⟩ := mem_filterMap.mp he
    exact mem_of_getElem? hn

/-- **Stale events are filtered.** No event fires a handler that a later registration installed, no
handler fires twice in a direction, and no descriptor has the token of the wakeup pipe, as long as
the generations do not come round between a registration and the processing of its events. -/
theorem stale_events_filtered (steps : List (Step H)) (h : Machine.AllSteps step Timely {} steps) :
    (∀ f ∈ (Machine.run step {} steps).ctx.fired, f.installed.registration ≤ f.producedFor) ∧
      ((Machine.run step {} steps).ctx.fired.map fun f =>
        (f.fd, f.direction, f.installed.registration)).Nodup ∧
      ∀ fd pending, (Machine.run step {} steps).ctx.pendingIo fd = some pending →
        ∃ token, (Machine.run step {} steps).ctx.platform fd = some (token, pending.interest) ∧
          token ≠ 0 := by
  have hinit : WorldInv ({} : World H) := ⟨inv_init, nofun⟩
  have hinv := (Machine.run_invariant (I := WorldInv) (fun _ a hw ha => hw.step a ha) hinit h).ctx
  refine ⟨fun f hf => (hinv.fired f hf).1, hinv.once, fun fd pending hp => ?_⟩
  have hentry := hinv.entry fd pending hp
  refine ⟨_, hentry.platform, ?_⟩
  rw [encodeToken_eq, hentry.generation, generationOf]
  omega

/-- An event of an earlier registration meets a later one. -/
def staleRun : List (Step Unit) :=
  [.register 5 ⟨true, false⟩ (some ()), .ready 5 ⟨true, false⟩, .register 5 ⟨true, false⟩ (some ()),
    .process [0]]

theorem stale_events_filtered_staleRun : Machine.AllSteps step Timely {} staleRun ∧
    ∀ f ∈ (Machine.run step {} staleRun).ctx.fired, f.installed.registration ≤ f.producedFor := by
  have htimely : Machine.AllSteps step Timely {} staleRun := by
    refine ⟨trivial, trivial, trivial, fun e he => ?_, trivial⟩
    cases mem_singleton.mp he
    decide
  exact ⟨htimely, (stale_events_filtered _ htimely).1⟩

theorem run_register_other (hfd : fd ≠ fd') (events : Events) (handler : Option H) (n : Nat)
    (h : Inv ctx) (produced : List Produced) : ∃ ctx',
      Machine.run step ⟨ctx, produced⟩ (List.replicate n (.register fd' events handler)) =
        ⟨ctx', produced⟩ ∧ Inv ctx' ∧ ctx'.pendingIo fd = ctx.pendingIo fd ∧
      ctx'.platform fd = ctx.platform fd ∧ ctx'.registrations = ctx.registrations + n := by
  induction n generalizing ctx with
  | zero => exact ⟨ctx, rfl, h, rfl, rfl, rfl⟩
  | succ n ih =>
    obtain ⟨ctx', hrun, hinv, hpending, hplatform, hcount⟩ := ih (inv_setIoHandler h fd' events handler)
    refine ⟨ctx', hrun, hinv, ?_, ?_, ?_⟩
    · rw [hpending]
      exact update_of_ne hfd _ _
    · rw [hplatform]
      exact update_of_ne hfd _ _
    · rw [hcount, setIoHandler, Nat.add_right_comm, Nat.add_assoc]

/-- Descriptor 1 is registered first, and again as the registration with number `2 ^ 32`, after an
event was reported for it. -/
def wrapRun : List (Step Unit) :=
  [.register 1 ⟨true, false⟩ (some ())] ++ List.replicate (2 ^ 32 - 2) (.register 2 {} none) ++
    [.ready 1 ⟨true, false⟩, .remove 1, .register 1 ⟨true, false⟩ (some ()), .process [0]]

/-- A single registration between the report of an event and its processing is enough to fire a
later handler, if the descriptor was registered long ago: its generation has come round. -/
theorem stale_event_fires :
    (Machine.run step {} wrapRun).produced.map Produced.reportedAt = [2 ^ 32 - 1] ∧
      (Machine.run step {} wrapRun).ctx.registrations = 2 ^ 32 ∧
      ∃ f ∈ (Machine.run step {} wrapRun).ctx.fired, f.producedFor < f.installed.registration := by
  have hfirst : Inv (setIoHandler 1 ⟨true, false⟩ (some ()) {}) :=
    inv_setIoHandler inv_init 1 ⟨true, false⟩ (some ())
  obtain ⟨ctx, hrun, hinv, hpending, hplatform, hcount⟩ := run_register_other
    (show (1 : Fd) ≠ 2 by decide) {} none (2 ^ 32 - 2) hfirst []
  have hcount : ctx.registrations = 2 ^ 32 - 1 := hcount
  have hnext := hinv.next
  rw [hcount, show generationOf (2 ^ 32 - 1 + 1) = 1 from rfl] at hnext
  have hwhole : Machine.run step {} wrapRun = Machine.run step ⟨ctx, []⟩ [.ready 1 ⟨true, false⟩,
      .remove 1, .register 1 ⟨true, false⟩ (some ()), .process [0]] := by
    rw [wrapRun, Machine.run_append, Machine.run_append, ← hrun]
    rfl
  rw [hwhole]
  obtain ⟨pending, hpending, hreg⟩ : ∃ pending, ctx.pendingIo 1 = some pending ∧
      pending.registration = 1 := ⟨_, hpending, rfl⟩
  have htoken : encodeToken 1 1 ≠ 0 := by decide
  simp [Machine.run, step, hplatform, hpending, picked, processIoEvent, setIoHandler, removeIo,
    hnext, hcount, hreg, htoken, decodeToken_encodeToken, PendingIo.fires, Events.has, fire]

end IOContext

end Spaznet.Platform
