import Spaznet.Quic.Connection.Plain
import Spaznet.Quic.Connection.StreamStep

/-!
# Retired streams

`retire_closed_streams` erases a closed stream and nothing remembers its id, so a late STREAM or
RESET_STREAM frame on it opens a new stream with the same id.
-/

namespace Spaznet.Quic

open Connection

def Action.Retires (c : Connection) (id : Nat) : Action → Prop
  | .retire => c.faulted = false ∧ isClientInitiated id = true ∧
      ∃ s, c.findStream id = some s ∧ s.terminal id = true
  | _ => False

namespace Run

def Retired (past : List (Connection × Action)) (k : Nat) : Prop := ∃ y ∈ past, y.2.Retires y.1 k

/-- **Retired streams.** No frame ever puts a retired stream back exactly if no STREAM or
RESET_STREAM frame on a retired id passes the stream limit and the offset bound. -/
theorem retired_stays_closed_iff (env : Env) (c : Connection) (events : List Event) :
    AtEach (fun x past => ∀ level f, x.2 = .frame level f → ∀ k, Retired past k →
      x.1.findStream k = none → (x.1.perform env x.2).findStream k = none)
        (ofEvents env c events).trace ↔
    AtEach (fun x past => ∀ level f, x.2 = .frame level f → ∀ k, Retired past k →
      x.1.findStream k = none → x.1.faulted = true ∨ ¬ x.2.Opens x.1 k)
        (ofEvents env c events).trace := by
  refine forall₂_congr fun x past => forall_congr' fun _ => forall₂_congr fun level f =>
    forall_congr' fun _ => forall₂_congr fun k _ => forall_congr' fun hn => ?_
  unfold Connection.perform
  cases hf : x.1.faulted with
  | true => exact ⟨fun _ => .inl rfl, fun _ => hn⟩
  | false =>
    rw [if_neg Bool.false_ne_true, findStream_act_eq_none_iff env x.2 hn]
    exact ⟨.inr, fun h => h.resolve_left Bool.false_ne_true⟩

/-- A client's unidirectional stream carries one byte and a FIN, is read and retired; then the
STREAM frame arrives again. -/
def lateFrameRun : Run := ofEvents (Env.plainEstablished {})
  (.create (Env.plainEstablished {}) [] [] []
    { initialMaxData := 10, initialMaxStreamsUni := 1, initialMaxStreamDataUni := 10 })
  [.timer, .datagram ([0x40, 0, 0x09, 2, 0x61] ++ List.replicate 16 0), .readStream 2, .timer,
    .datagram ([0x40, 1, 0x09, 2, 0x61] ++ List.replicate 16 0)]

/-- The late frame opens the stream again. -/
theorem late_frame_reopens_stream : ¬ AtEach (fun x past => ∀ level f, x.2 = .frame level f →
    ∀ k, Retired past k → x.1.findStream k = none →
      (x.1.perform (Env.plainEstablished {}) x.2).findStream k = none) lateFrameRun.trace := by
  intro h
  have hframe : (lateFrameRun.trace.drop 1).head?.map (fun x => x.2) =
      some (.frame .application (.stream { streamId := 2, fin := true, data := [0x61] })) := by
    decide +kernel
  have hretired : ∃ y ∈ (lateFrameRun.trace.drop 1).tail, y.2 = .retire ∧ y.1.faulted = false ∧
      (y.1.findStream 2).any (Stream.terminal 2) = true := by decide +kernel
  have hopens : (lateFrameRun.trace.drop 1).head?.map (fun x => ((x.1.findStream 2).isNone,
      ((x.1.perform (Env.plainEstablished {}) x.2).findStream 2).isNone)) = some (true, false) := by
    decide +kernel
  have hsuffix : lateFrameRun.trace.drop 1 <:+ lateFrameRun.trace := List.drop_suffix 1 _
  generalize lateFrameRun.trace.drop 1 = late at hframe hretired hopens hsuffix
  cases late with
  | nil => cases hframe
  | cons x past =>
    obtain ⟨y, hy, ha, hf, hterm⟩ := hretired
    obtain ⟨hbefore, hafter⟩ := Prod.mk.inj (Option.some.inj hopens)
    obtain ⟨s, hs, hterm⟩ := Option.any_eq_true _ _ |>.1 hterm
    have hpast : Retired past 2 := by
      refine ⟨y, hy, ?_⟩
      rw [ha]
      exact ⟨hf, rfl, s, hs, hterm⟩
    have hnone := h x past hsuffix _ _ (Option.some.inj hframe) 2 hpast
      (Option.isNone_iff_eq_none.1 hbefore)
    rw [hnone] at hafter
    cases hafter

end Run

end Spaznet.Quic
