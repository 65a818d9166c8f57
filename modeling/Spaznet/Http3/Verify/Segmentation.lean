import Spaznet.Http3.Content

/-!
# Requests do not depend on segmentation

Two runs on two connections, with other environments, handlers and peers, in which a request stream
carries the same well-formed content: the handler gets the same request in both, once the end of the
stream is read, and never gets a second one for the stream.
-/

namespace Spaznet.Http3

open List
open Quic (Bytes Run)

namespace Endpoint

variable {env : Quic.Env} {handler : RequestFn} {x x' : Endpoint} {k : Nat}

def callsFor (x : Endpoint) (id : Nat) : List Call := x.calls.filter fun call => call.id = id

/-- A request is handled exactly if the handler was called for it, and it was called once. -/
def CallsOnce (x : Endpoint) : Prop :=
  ∀ id, (x.callsFor id).length = if (x.pendingAt id).handled then 1 else 0

theorem CallsOnce.process (h : CallsOnce x) (hp : Processes env handler x k x') :
    CallsOnce x' := by
  intro id
  have hid := h id
  have hstored {pr : PendingRequest} {y : Endpoint} (hcalls : y.calls = x.calls)
      (hy : y.server.pending = x.server.pending.insert k pr)
      (hpr : pr.handled = (x.pendingAt k).handled) :
      (y.callsFor id).length = if (y.pendingAt id).handled then 1 else 0 := by
    rw [callsFor, hcalls, ← callsFor, hid, pendingAt_of_insert hy]
    by_cases hk : id = k
    · rw [if_pos hk, hpr, hk]
    · rw [if_neg hk]
  cases hp with
  | aside => exact hid
  | stored _ _ _ hfeed => exact hstored rfl rfl (PendingRequest.handled_feed hfeed)
  | @called pr _ _ _ hfeed hready =>
    have hbefore : (x.pendingAt k).handled = false :=
      (PendingRequest.handled_feed hfeed).symm.trans (PendingRequest.handled_of_ready hready)
    have hone (call : Call) : ([call].filter fun call => call.id = id).length =
        if id = call.id then 1 else 0 := by
      by_cases h : call.id = id
      · simp [h]
      · simp [h, Ne.symm h]
    rw [pendingAt_of_insert (x := x) rfl, callsFor, filter_append, length_append,
      ← callsFor, hid, hone]
    by_cases hk : id = k
    · rw [if_pos hk, if_pos hk, hk, hbefore]
      rfl
    · rw [if_neg hk, if_neg hk]
      rfl

theorem CallsOnce.step (h : CallsOnce x) (s : Step) : CallsOnce (x.step env handler s) := by
  cases s with
  | own a => exact h
  | setUp =>
    show CallsOnce (x.initializeServerStreams env)
    unfold initializeServerStreams
    split
    · exact h
    · exact h
  | process k => exact h.process (processes_processStream env handler x k)

theorem callsOnce_run (w : Setting) : CallsOnce w.run := by
  refine Reaches.invariant (Q := fun _ _ => True) (fun x s _ h _ => h.step s)
    (reaches_ofEvents w.env w.handler _ w.events) (fun id => ?_) fun _ _ _ => trivial
  rfl

end Endpoint

open Endpoint (callsOnce_run)

/-- **Segmentation independence.** -/
theorem requests_independent_of_segmentation (w w' : Setting) (id id' : Nat) (content : Bytes)
    (hid : isRequestStream id = true) (hid' : isRequestStream id' = true)
    (hlimit : content.length ≤ kMaxRequestStreamBytes) (hwell : WellFormed content)
    (hcarries : Run.AtEach (Carries content id) w.run.run.trace)
    (hcarries' : Run.AtEach (Carries content id') w'.run.run.trace) :
    (∀ call ∈ w.run.callsFor id, call.req = requestOf content ∧
      ∀ call' ∈ w'.run.callsFor id', call'.req = call.req) ∧
    (ended id w.run.run.trace = true → Opens content → w.run.callsFor id ≠ []) ∧
    ∀ k, (w.run.callsFor k).length ≤ 1 := by
  have hw := watching_of_carries w hid hlimit hcarries
  have hw' := watching_of_carries w' hid' hlimit hcarries'
  refine ⟨fun call hcall => ?_, fun hended hopens hnone => ?_, fun k => ?_⟩
  · obtain ⟨hmem, hcallId⟩ := mem_filter.mp hcall
    have hreq := (hw.calls call hmem (of_decide_eq_true hcallId)).1
    refine ⟨hreq, fun call' hcall' => ?_⟩
    obtain ⟨hmem', hcallId'⟩ := mem_filter.mp hcall'
    rw [(hw'.calls call' hmem' (of_decide_eq_true hcallId')).1, hreq]
  · -- A request that is not handled still waits, though the end was reported.
    have honce := callsOnce_run w id
    cases hhandled : (w.run.pendingAt id).handled with
    | true =>
      rw [hnone, hhandled] at honce
      cases honce
    | false => exact (hw.waiting hhandled).2.waits hwell hended hopens
  · rw [callsOnce_run w k]
    split
    · exact Nat.le_refl _
    · exact Nat.zero_le _

/-- Once in one piece, and once the second half first, with a `pump` in between. -/
theorem requests_independent_of_segmentation_halves :
    let content := getRequest ++ [0x00, 0x01, 0x61]
    let w := plain [.timer, whole content, .pump]
    let w' := plain [.timer, packet 0 [0x0D, 0, 5, 0x00, 0x01, 0x61], .pump,
      packet 1 ([0x08, 0] ++ getRequest), .pump]
    ((w.run.callsFor 0).length = 1 ∧ (w'.run.callsFor 0).length = 1) ∧
    (∀ call ∈ w.run.callsFor 0, call.req = requestOf content ∧
      ∀ call' ∈ w'.run.callsFor 0, call'.req = call.req) ∧
    (ended 0 w.run.run.trace = true → Opens content → w.run.callsFor 0 ≠ []) ∧
    ∀ k, (w.run.callsFor k).length ≤ 1 :=
  ⟨by decide +kernel, requests_independent_of_segmentation _ _ 0 0 _ rfl rfl (by decide)
    (by decide +kernel) (by decide +kernel) (by decide +kernel)⟩

end Spaznet.Http3
