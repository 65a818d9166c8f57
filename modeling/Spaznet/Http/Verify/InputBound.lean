import Spaznet.Http.ReactorDispatcher

/-!
# The input buffer

While the dispatcher waits for a request, its buffer stays below the cap, or the connection is
refused. But bytes are also appended while a request is being dispatched and while the connection is
closing, and there nothing looks at the cap.
-/

namespace Spaznet.Http.Http1Connection

open Ascii Reactor List

variable {env : Env} {c : Http1Connection} {f : BufferedConnection → BufferedConnection}

/-- A buffer without a complete request is below the cap, as long as the connection goes on. -/
def Capped (c : Http1Connection) : Prop :=
  c.phase = .readingRequest → c.closing = false → c.conn.closed = false →
    c.buffer.length < kMaxRequestBytes

theorem capped_of_closing (h : c.closing = true) : c.Capped := by
  intro _ hclosing
  cases hclosing.symm.trans h

theorem capped_onConn (h : c.Capped) (hclosed : c.conn.closed = true → (f c.conn).closed = true) :
    (c.onConn f).Capped := by
  obtain ⟨-, heq⟩ | ⟨hsame, heq⟩ := onConn_cases hclosed
  · rw [heq]
    exact capped_of_closing closing_onClosed
  · rw [heq]
    intro hphase hclosing hopen
    exact h hphase hclosing (hsame.symm.trans hopen)

theorem tryProcess_capped (env : Env) (h : c.buffer.length < fuel) :
    (c.tryProcess env fuel).Capped ∧ (c.tryProcess env fuel).buffer.length ≤ c.buffer.length := by
  induction fuel generalizing c with
  | zero => omega
  | succ fuel ih =>
    unfold tryProcess
    split
    next hguard =>
      refine ⟨fun hphase hclosing => ?_, Nat.le_refl _⟩
      obtain hguard | hguard := hguard
      · exact absurd hphase hguard
      · cases hclosing.symm.trans hguard
    split
    next hclosed => exact ⟨fun _ _ hopen => (by cases hopen.symm.trans hclosed), Nat.le_refl _⟩
    have herror := sendErrorAndClose_frame env 400 (ascii "Bad Request") c
    split
    · split
      · exact ⟨capped_of_closing herror.1, by rw [herror.2.1]⟩
      next hcap => exact ⟨fun _ _ _ => by omega, Nat.le_refl _⟩
    · exact ⟨capped_of_closing herror.1, by rw [herror.2.1]⟩
    next request consumed hparse =>
      split
      · refine ⟨capped_of_closing ?_, by rw [buffer_onConn]⟩
        rw [closing_onConn]
        rfl
      have hpos := parseRequest_pos hparse
      have hlen : ((c.beginDispatch request consumed).callHandler env
          (env.handler (c.writers.map Writer.request) request)).buffer.length =
            c.buffer.length - consumed := by
        rw [(callHandler_frame _ _ _).2, beginDispatch, length_drop]
      dsimp only
      split
      · have habandon := abandon_frame ((c.beginDispatch request consumed).callHandler env
          (env.handler (c.writers.map Writer.request) request))
        refine ⟨capped_of_closing habandon.1, ?_⟩
        rw [habandon.2.1]
        omega
      · obtain ⟨hcapped, hle⟩ := ih (hlen.trans_lt (by omega))
        exact ⟨hcapped, by omega⟩

theorem idle_tryProcess (h : c.dispatchCallActive = false) (fuel : Nat) :
    (c.tryProcess env fuel).dispatchCallActive = false := by
  refine tryProcess_rule (I := fun c => c.dispatchCallActive = false) ?_ ?_ ?_ ?_ fuel h
  · exact fun c _ _ hidle => (sendErrorAndClose_frame env 400 (ascii "Bad Request") c).2.2.trans hidle
  · exact fun c _ hidle => active_onConn.trans hidle
  · exact fun _ _ _ _ _ _ _ _ => rfl
  · exact fun c hidle => (abandon_frame c).2.2.trans hidle

/-- What holds between two events, if reads keep to the guard. -/
structure Bounded (c : Http1Connection) : Prop where
  idle : c.dispatchCallActive = false
  capped : c.Capped
  size : c.buffer.length ≤ kMaxRequestBytes + kReadChunk

theorem bounded_process (hidle : c.dispatchCallActive = false)
    (hsize : c.buffer.length ≤ kMaxRequestBytes + kReadChunk) : (c.process env).Bounded := by
  obtain ⟨hcapped, hle⟩ := tryProcess_capped env (Nat.lt_succ_self c.buffer.length)
  exact ⟨idle_tryProcess hidle _, hcapped, hle.trans hsize⟩

theorem bounded_onResponseReady (hidle : c.dispatchCallActive = false)
    (hsize : c.buffer.length ≤ kMaxRequestBytes + kReadChunk) (request : HTTPRequest)
    (response : HTTPResponse) :
    (c.onResponseReady env (process env) request response).Bounded := by
  unfold onResponseReady
  extract_lets c' c''
  have hidle' : c''.dispatchCallActive = false := active_onConn.trans hidle
  have hsize' : c''.buffer.length ≤ kMaxRequestBytes + kReadChunk := by
    rw [buffer_onConn]
    exact hsize
  split
  next hclosing => exact ⟨hidle, capped_of_closing hclosing, hsize⟩
  split
  · refine ⟨active_onConn.trans hidle', capped_of_closing ?_, ?_⟩
    · rw [closing_onConn]
      rfl
    · rw [buffer_onConn]
      exact hsize'
  · rw [hidle']
    exact bounded_process hidle' hsize'

/-- The check that is missing: a read that is only stored finds at most the cap. -/
def Guarded (c : Http1Connection) : Event → Prop
  | .data bytes => bytes.length ≤ kReadChunk ∧
    (c.phase = .dispatching ∨ c.closing = true → c.buffer.length ≤ kMaxRequestBytes)
  | .fail | .writable | .complete _ _ => True

instance Guarded.decidable (c : Http1Connection) : ∀ event, Decidable (c.Guarded event)
  | .data _ => inferInstanceAs (Decidable (_ ∧ (_ ∨ _ → _)))
  | .fail | .writable | .complete _ _ => inferInstanceAs (Decidable True)

theorem bounded_onConn (h : c.Bounded) (hclosed : c.conn.closed = true → (f c.conn).closed = true) :
    (c.onConn f).Bounded := by
  refine ⟨active_onConn.trans h.idle, capped_onConn h.capped hclosed, ?_⟩
  rw [buffer_onConn]
  exact h.size

theorem bounded_onData (h : c.Bounded) (hopen : c.conn.closed = false)
    (hguard : c.Guarded (.data bytes)) : (c.onData env bytes).Bounded := by
  unfold onData
  dsimp only
  split
  next hstored =>
    have hlength := hguard.2 (by
      obtain hclosing | hphase := hstored
      · exact .inr hclosing
      refine .inl ?_
      cases hcase : c.phase with
      | readingRequest => exact absurd hcase hphase
      | dispatching => rfl)
    refine ⟨h.idle, ?_, ?_⟩
    · intro hphase hclosing
      obtain hstored | hstored := hstored
      · cases hclosing.symm.trans hstored
      · exact absurd hphase hstored
    · have hread := hguard.1
      simp only [length_append]
      omega
  next hstored =>
    obtain ⟨hclosing, hphase⟩ := not_or.mp hstored
    have hlength := h.capped (not_not.mp hphase) (Bool.not_eq_true _ ▸ hclosing) hopen
    refine bounded_process h.idle ?_
    have hread := hguard.1
    simp only [length_append]
    omega

theorem bounded_step (h : c.Bounded) (hguard : c.Guarded event) :
    (c.step env event).Bounded := by
  unfold step
  cases event with
  | data bytes =>
    dsimp only
    split
    · exact h
    next hopen => exact bounded_onData h (Bool.not_eq_true _ ▸ hopen) hguard
  | fail => exact bounded_onConn h fun _ => BufferedConnection.closed_close
  | writable =>
    refine bounded_onConn h fun hclosed => ?_
    rw [BufferedConnection.onWritable_of_closed hclosed]
    exact hclosed
  | complete n response =>
    dsimp only
    unfold complete
    split
    · apply bounded_onResponseReady
      · exact h.idle
      · exact h.size
    · exact h

/-- The buffer stays within the cap and one read, if every read that is only stored finds at most
the cap. -/
theorem buffer_le_of_guarded (env : Env) (ctx : IOContext) (initialBuffer : Bytes)
    (events : List Event) (hinitial : initialBuffer.length ≤ kMaxRequestBytes + kReadChunk)
    (hguard : Machine.AllSteps (step env) Guarded (start env ctx initialBuffer) events) :
    (run env ctx initialBuffer events).buffer.length ≤ kMaxRequestBytes + kReadChunk := by
  have hstart : (start env ctx initialBuffer).Bounded := by
    unfold start
    split
    · exact bounded_process rfl hinitial
    next hnil =>
      rw [not_not] at hnil
      subst hnil
      exact ⟨rfl, fun _ _ _ => Nat.zero_lt_succ _, hinitial⟩
  exact (Machine.run_invariant (fun c event h => bounded_step h) hstart hguard).size

def getRequest : Bytes := ascii "GET / HTTP/1.1\r\n\r\n"

/-- A peer that sends the beginning of a second request behind the first. -/
theorem buffer_le_pipelined :
    let events : List Event := [.data (getRequest ++ ascii "GET"), .complete 0 {}, .fail]
    Machine.AllSteps (step .deferring) Guarded (start .deferring {} []) events ∧
      (run .deferring {} [] events).buffer.length ≤ kMaxRequestBytes + kReadChunk := by
  have hguard : Machine.AllSteps (step .deferring) Guarded (start .deferring {} [])
      [.data (getRequest ++ ascii "GET"), .complete 0 {}, .fail] := by
    decide +kernel
  exact ⟨hguard, buffer_le_of_guarded .deferring {} [] _ (Nat.zero_le _) hguard⟩

theorem buffer_run_dispatching (hphase : c.phase = .dispatching) (hopen : c.conn.closed = false)
    (data : Bytes) (n : Nat) :
    (Machine.run (step env) c (List.replicate n (.data data))).buffer.length =
      c.buffer.length + n * data.length := by
  induction n generalizing c with
  | zero => rw [Nat.zero_mul]; rfl
  | succ n ih =>
    have hstep : c.step env (.data data) = { c with buffer := c.buffer ++ data } := by
      unfold step onData
      dsimp only
      rw [hopen, if_neg Bool.false_ne_true, if_pos (.inr (by rw [hphase]; nofun))]
    have hrest := @ih { c with buffer := c.buffer ++ data } hphase hopen
    rw [replicate_succ, Machine.run_cons, hstep, hrest, length_append, Nat.succ_mul]
    omega

/-- A handler that keeps its writer lets the peer fill the buffer: 258 reads behind one request. -/
theorem buffer_exceeds_cap :
    kMaxRequestBytes + kReadChunk <
      (run .deferring {} [] (.data getRequest ::
        List.replicate 258 (.data (List.replicate kReadChunk 0)))).buffer.length := by
  have hdispatched : (run .deferring {} [] [.data getRequest]).phase = .dispatching ∧
      (run .deferring {} [] [.data getRequest]).conn.closed = false := by
    decide +kernel
  have hlength := @buffer_run_dispatching .deferring _ hdispatched.1 hdispatched.2
    (List.replicate kReadChunk 0) 258
  rw [run, Machine.run_cons]
  refine lt_of_lt_of_eq ?_ hlength.symm
  rw [length_replicate]
  unfold kMaxRequestBytes kReadChunk
  omega

end Spaznet.Http.Http1Connection
