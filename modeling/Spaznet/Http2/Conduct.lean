import Spaznet.Http2.CoroutineTurn
import Spaznet.Http2.ReactorTurn

/-!
# The conduct of a dispatcher

The runs of both dispatchers as sequences of turns. What is proved of turns holds of either.
-/

namespace Spaznet.Http2

open List ConnState
open Reactor (IOContext)

/-- The run of a dispatcher, seen as an exchange, in which every deed met a condition. -/
inductive Exchange.Conducted (env : Env) (P : Exchange → Deed → Prop) : Exchange → Prop where
  | reactor (ctx : IOContext) (events : List Http2Connection.Event)
    (h : Machine.AllSteps (Http2Connection.act env) (fun c action => P c.exchange (c.deed action))
      { ctx } (Http2Connection.actions {} events)) :
    Conducted env P (Http2Connection.run env ctx events).exchange
  | coroutine (ctx : IOContext) (resumptions : List ConnState.Resumption)
    (h : Machine.AllSteps (act env) (fun c action => P c.exchange (c.deed action))
      { ctx } (actions {} resumptions)) :
    Conducted env P (run env ctx resumptions).exchange

namespace Http2Connection

open Exchange (Turns)

theorem turns_run (env : Env) {actions : List Action} (htidy : c.Tidy)
    (hlegal : ∀ frame, .item (.frame frame) ∈ actions → frame.Legal)
    (h : Machine.AllSteps (act env) (fun c action => P c.exchange (c.deed action)) c actions) :
    Turns env.hpack P c.exchange (Machine.run (act env) c actions).exchange ∧
      (Machine.run (act env) c actions).Tidy := by
  induction actions generalizing c with
  | nil => exact ⟨.refl, htidy⟩
  | cons action actions ih =>
    obtain ⟨hturns, htidy'⟩ := turns_act env action htidy h.1
      fun frame heq => hlegal frame (heq ▸ mem_cons_self)
    obtain ⟨hrest, htidy''⟩ := ih htidy' (fun frame hmem => hlegal frame (mem_cons_of_mem _ hmem)) h.2
    exact ⟨hturns.trans hrest, htidy''⟩

end Http2Connection

namespace Exchange

theorem Dispatched.conducted {e : Exchange} (h : e.Dispatched env) :
    e.Conducted env fun _ _ => True := by
  cases h with
  | reactor ctx events =>
    exact .reactor ctx events (Machine.allSteps_of_forall (fun _ _ => trivial) _ _)
  | coroutine ctx resumptions =>
    exact .coroutine ctx resumptions (Machine.allSteps_of_forall (fun _ _ => trivial) _ _)

/-- A dispatcher takes one turn after the other. -/
theorem Conducted.turns {P : Exchange → Deed → Prop} (h : e.Conducted env P) :
    Turns env.hpack P {} e := by
  cases h with
  | reactor ctx events h =>
    have hcore := congrArg Http2Connection.exchange (Http2Connection.core_run env ctx events)
    have htidy : ({ ctx } : Http2Connection).Tidy := nofun
    have hturns := (Http2Connection.turns_run env htidy
      (fun frame => Http2Connection.legal_of_mem_actions Reader.sound_start) h).1
    exact hcore ▸ hturns
  | coroutine ctx resumptions h =>
    suffices hrun : ∀ (actions : List ConnState.Action) (c : ConnState),
        (∀ frame, .item (.frame frame) ∈ actions → frame.Legal) →
        Machine.AllSteps (act env) (fun c action => P c.exchange (c.deed action)) c
          actions →
        Turns env.hpack P c.exchange (Machine.run (act env) c actions).exchange by
      have hcore := congrArg exchange (core_run env ctx resumptions)
      have hturns := hrun _ _ (fun frame => legal_of_mem_actions Reader.sound_start) h
      exact hcore ▸ hturns
    intro actions
    induction actions with
    | nil => exact fun _ _ _ => .refl
    | cons action actions ih =>
      intro c hlegal h
      have hturns := turns_act env action h.1
        fun frame heq => hlegal frame (heq ▸ mem_cons_self)
      exact hturns.trans (ih _ (fun frame hmem => hlegal frame (mem_cons_of_mem _ hmem)) h.2)

end Exchange

end Spaznet.Http2
