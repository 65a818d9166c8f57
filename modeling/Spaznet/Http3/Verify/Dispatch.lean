import Spaznet.Http3.Content

/-!
# The handler is called for well-formed requests

`process_stream` calls the handler once a field section was decoded and the FIN has come. It does
not look at what is left in the buffer then, and it does not remember that an earlier field section
could not be decoded. The handler is therefore called exactly for well-formed requests if no other
content has a field section that can be decoded.
-/

namespace Spaznet.Http3

open Quic (Bytes Run)

/-- **Dispatch.** A request stream carries a content within the limit that is well formed, or has no
field section that can be decoded. The handler is called for it only when all of it has been read up
to the FIN, and only if it is well formed. -/
theorem dispatched_only_if_wellFormed (w : Setting) (id : Nat) (content : Bytes)
    (hid : isRequestStream id = true) (hlimit : content.length ≤ kMaxRequestStreamBytes)
    (hcontent : WellFormed content ∨ ¬ Opens content)
    (hcarries : Run.AtEach (Carries content id) w.run.run.trace) :
    ∀ call ∈ w.run.calls, call.id = id →
      readBytes id call.past = content ∧ finReceived id call.past = true ∧ WellFormed content := by
  intro call hcall hcallId
  have hwatching := watching_of_carries w hid hlimit hcarries
  obtain ⟨-, hopens, hread, hfin⟩ := hwatching.calls call hcall hcallId
  exact ⟨hread, hfin, hcontent.resolve_right (not_not_intro hopens)⟩

theorem dispatched_only_if_wellFormed_get :
    (plain [.timer, whole getRequest, .pump]).run.calls.map Call.id = [0] ∧
      ∀ call ∈ (plain [.timer, whole getRequest, .pump]).run.calls, call.id = 0 →
        readBytes 0 call.past = getRequest ∧ finReceived 0 call.past = true ∧ WellFormed getRequest :=
  ⟨by decide +kernel, dispatched_only_if_wellFormed (plain [.timer, whole getRequest, .pump]) 0
    getRequest rfl (by decide) (by decide +kernel) (by decide +kernel)⟩

def truncated : Bytes := getRequest ++ [0x00, 0x05, 0x61]

def undecodable : Bytes := getRequest ++ [0x01, 0x01, 0x00]

/-- The handler is called for both: for the second one when `pump` is called again. -/
theorem malformed_requests_dispatched :
    (Run.AtEach (Carries truncated 0) (plain [.timer, whole truncated, .pump]).run.run.trace ∧
      (plain [.timer, whole truncated, .pump]).run.calls.map Call.id = [0] ∧
      ¬ WellFormed truncated) ∧
    Run.AtEach (Carries undecodable 0)
      (plain [.timer, whole undecodable, .pump, .pump]).run.run.trace ∧
      (plain [.timer, whole undecodable, .pump, .pump]).run.calls.map Call.id = [0] ∧
      ¬ WellFormed undecodable := by
  decide +kernel

end Spaznet.Http3
