import Spaznet.Quic.Connection.Footprint
import Spaznet.Quic.Connection.Plain

/-!
# Replayed packets

Every packet that opens has its frames applied: neither receive path looks at the packet numbers
already received. The frames applied are therefore those of the packets that were opened, packet by
packet, and a packet number has its frames applied at most once exactly when no packet with frames
is opened under it again.
-/

namespace Spaznet.Quic

open Connection List Action

/-- A packet by its level and number, with the frames that its payload parses to. -/
abbrev OpenedPacket := (EncryptionLevel × Nat) × List Frame

def Action.opens (env : Env) (c : Connection) : Action → List OpenedPacket
  | .longPacket datagram off => match (c.openLongPacket env datagram off).result with
    | .opened level pn payload _ => [((level, pn), (parseFrames payload).getD [])]
    | .abandon | .skip _ | .fault => []
  | .shortPacket dg => (c.openShortPacket env dg).toList.map fun p =>
    ((.application, p.pn), (parseFrames p.payload).getD [])
  | _ => []

namespace Run

def opened (env : Env) (trace : List (Connection × Action)) : List OpenedPacket :=
  trace.flatMap fun x => x.2.opens env x.1

/-- The frames that were applied, by the packet that was opened last, if there was one. -/
def framesApplied (env : Env) :
    List (Connection × Action) → List (Option (EncryptionLevel × Nat) × List Frame)
  | [] => []
  | (_, .frame _ f) :: past => match framesApplied env past with
    | [] => [(none, [f])]
    | (number, frames) :: rest => (number, frames ++ [f]) :: rest
  | (c, a) :: past => (a.opens env c).map (fun p => (some p.1, [])) ++ framesApplied env past

def timesApplied (env : Env) (trace : List (Connection × Action)) (level : EncryptionLevel)
    (pn : Nat) : Nat :=
  (((framesApplied env trace).filter (·.2 ≠ [])).map (·.1)).count (some (level, pn))

variable {env : Env} {past : List (Connection × Action)}

theorem framesApplied_cons (c : Connection) (h : ∀ level f, a ≠ .frame level f) :
    framesApplied env ((c, a) :: past) =
      (a.opens env c).map (fun p => (some p.1, [])) ++ framesApplied env past := by
  cases a with
  | frame => exact absurd rfl (h _ _)
  | _ => rfl

/-- Frames are added to the packet that was opened last, and open none. -/
theorem framesApplied_frames (level : EncryptionLevel) (frames : List Frame) {r : Run}
    (h : framesApplied env r.trace = (number, before) :: rest) :
    framesApplied env (r.performAll env (frames.map (.frame level))).trace =
        (number, before ++ frames) :: rest ∧
      opened env (r.performAll env (frames.map (.frame level))).trace = opened env r.trace := by
  induction frames generalizing r before with
  | nil =>
    rw [append_nil]
    exact ⟨h, rfl⟩
  | cons f frames ih =>
    have hf : framesApplied env (r.perform env (.frame level f)).trace =
        (number, before ++ [f]) :: rest := by
      show framesApplied env ((r.conn, .frame level f) :: r.trace) = _
      rw [framesApplied, h]
    rw [append_cons]
    exact ih hf

def InStep (env : Env) (r : Run) : Prop :=
  framesApplied env r.trace = (opened env r.trace).map fun p => (some p.1, p.2)

section
variable (h : InStep env r)
include h

/-- Opening a packet, applying its frames and noting its number keeps the lists in step. -/
theorem InStep.packet (ha : ∀ level f, a ≠ .frame level f)
    (ho : a.opens env r.conn = [((level, pn), (parseFrames payload).getD [])]) :
    InStep env (((r.perform env a).deliverFrames env level payload).perform env
      (.received level pn)) := by
  have hopen : framesApplied env (r.perform env a).trace =
      (some (level, pn), []) :: (opened env r.trace).map fun p => (some p.1, p.2) := by
    rw [← h]
    show framesApplied env ((r.conn, a) :: r.trace) = _
    rw [framesApplied_cons _ ha, ho]
    rfl
  have hopened : opened env (r.perform env a).trace =
      ((level, pn), (parseFrames payload).getD []) :: opened env r.trace :=
    congrArg (· ++ opened env r.trace) ho
  have hframes := framesApplied_frames level ((parseFrames payload).getD []) hopen
  rw [hopened] at hframes
  have hstep := hframes.1.trans
    (congrArg (map fun p : OpenedPacket => (some p.1, p.2)) hframes.2).symm
  unfold deliverFrames
  cases hparse : parseFrames payload with
  | none | some frames =>
    rw [hparse] at hstep
    exact hstep

theorem InStep.skip (ha : ∀ level f, a ≠ .frame level f) (ho : a.opens env r.conn = []) :
    InStep env (r.perform env a) := by
  have hopened : opened env (r.perform env a).trace = opened env r.trace :=
    congrArg (· ++ opened env r.trace) ho
  unfold InStep
  rw [hopened, ← h]
  show framesApplied env ((r.conn, a) :: r.trace) = _
  rw [framesApplied_cons _ ha, ho]
  rfl

theorem InStep.processLongPacket (datagram : Bytes) (off : Nat) :
    InStep env (r.processLongPacket env datagram off).2 := by
  unfold Run.processLongPacket
  cases hresult : (r.conn.openLongPacket env datagram off).result with
  | abandon | fault | skip => exact h.skip nofun (by simp [opens, hresult])
  | opened level pn payload cursor => exact h.packet nofun (by simp [opens, hresult])

theorem InStep.processShortPacket (dg : Bytes) : InStep env (r.processShortPacket env dg) := by
  unfold Run.processShortPacket
  cases hresult : r.conn.openShortPacket env dg with
  | none => exact h.skip nofun (by simp [opens, hresult])
  | some p => exact h.packet nofun (by simp [opens, hresult])

theorem InStep.perform (ha : a.ofPacket = false) : InStep env (r.perform env a) := by
  cases a with
  | longPacket | shortPacket | frameError | frame | received => cases ha
  | _ => exact h.skip nofun rfl

end

theorem inStep_ofEvents (env : Env) (c : Connection) (events : List Event) :
    InStep env (ofEvents env c events) :=
  invariant_ofEvents (fun _ datagram off h => h.processLongPacket datagram off)
    (fun _ dg h => h.processShortPacket dg) (fun _ _ ha h => h.perform ha) c events rfl

/-- No packet with frames is opened under a number under which one was opened before in its
packet-number space. -/
def NoReplay (env : Env) : List (Connection × Action) → Prop
  | [] => True
  | (c, a) :: past => NoReplay env past ∧ ∀ p ∈ a.opens env c, p.2 ≠ [] →
    ∀ q ∈ opened env past, q.2 ≠ [] → p.1 ≠ q.1

def numbers (ps : List OpenedPacket) : List (EncryptionLevel × Nat) :=
  (ps.filter (·.2 ≠ [])).map (·.1)

theorem mem_numbers {ps : List OpenedPacket} :
    number ∈ numbers ps ↔ ∃ p ∈ ps, p.2 ≠ [] ∧ p.1 = number := by
  simp only [numbers, mem_map, mem_filter, decide_eq_true_eq, and_assoc]

theorem nodup_opens (env : Env) (c : Connection) (a : Action) : (numbers (a.opens env c)).Nodup := by
  have hshort (l : List OpenedPacket) (h : l.length ≤ 1) : (numbers l).Nodup := by
    match l, h with
    | [], _ => exact nodup_nil
    | [p], _ =>
      unfold numbers
      exact ((nodup_singleton p).filter _).map_on fun x hx y hy _ =>
        (mem_singleton.1 (mem_of_mem_filter hx)).trans (mem_singleton.1 (mem_of_mem_filter hy)).symm
  refine hshort _ ?_
  cases a with
  | longPacket datagram off =>
    simp only [opens]
    split <;> simp
  | shortPacket dg =>
    simp only [opens, length_map]
    cases c.openShortPacket env dg <;> simp
  | _ => simp [opens]

theorem noReplay_iff_nodup (trace : List (Connection × Action)) :
    NoReplay env trace ↔ (numbers (opened env trace)).Nodup := by
  induction trace with
  | nil => simp [NoReplay, numbers, opened]
  | cons x past ih =>
    have hsplit : numbers (opened env (x :: past)) =
        numbers (x.2.opens env x.1) ++ numbers (opened env past) := by
      simp only [numbers, opened, flatMap_cons, filter_append, map_append]
    rw [hsplit, nodup_append, NoReplay, ih, and_iff_right (nodup_opens env x.1 x.2)]
    refine and_congr_right fun _ => ⟨fun h number hn number' hn' => ?_, fun h p hp hne q hq hne' => ?_⟩
    · obtain ⟨p, hp, hne, rfl⟩ := mem_numbers.1 hn
      obtain ⟨q, hq, hne', rfl⟩ := mem_numbers.1 hn'
      exact h p hp hne q hq hne'
    · exact h _ (mem_numbers.2 ⟨p, hp, hne, rfl⟩) _ (mem_numbers.2 ⟨q, hq, hne', rfl⟩)

theorem InStep.timesApplied_eq (h : InStep env r) (level : EncryptionLevel) (pn : Nat) :
    timesApplied env r.trace level pn = (numbers (opened env r.trace)).count (level, pn) := by
  have hsome : ((((opened env r.trace).map fun p => (some p.1, p.2)).filter (·.2 ≠ [])).map (·.1)) =
      (numbers (opened env r.trace)).map some := by
    rw [filter_map, map_map, numbers, map_map]
    rfl
  unfold timesApplied
  rw [h, hsome]
  exact count_map_of_injective _ _ (Option.some_injective _) _

/-- **Replays.** The frames applied are those of the packets that open, packet by packet. So a
number has its frames applied at most once exactly when no packet with frames is opened under it
again: the code itself never refuses one. -/
theorem framesApplied_eq_opened (env : Env) (c : Connection) (events : List Event) :
    let trace := (ofEvents env c events).trace
    framesApplied env trace = (opened env trace).map (fun p => (some p.1, p.2)) ∧
      ((∀ level pn, timesApplied env trace level pn ≤ 1) ↔ NoReplay env trace) := by
  have hstep := inStep_ofEvents env c events
  refine ⟨hstep, ?_⟩
  simp only [hstep.timesApplied_eq]
  rw [noReplay_iff_nodup, nodup_iff_count_le_one]
  exact ⟨fun h p => h p.1 p.2, fun h level pn => h (level, pn)⟩

/-- One Initial packet with three PING frames, received twice: they are applied twice. -/
theorem replayed_packet_applied_twice : ¬ ∀ level pn, timesApplied Env.plain (ofEvents Env.plain
    (.create Env.plain [] [] [] {})
    [.datagram ([0xc0, 0, 0, 0, 1, 0, 0, 0, 20, 0, 1, 1, 1] ++ List.replicate 16 0),
      .datagram ([0xc0, 0, 0, 0, 1, 0, 0, 0, 20, 0, 1, 1, 1] ++ List.replicate 16 0)]).trace
      level pn ≤ 1 := by
  intro h
  have htwice := h .initial 0
  revert htwice
  decide +kernel

end Run

end Spaznet.Quic
