import Mathlib.Data.Nat.Bitwise
import Spaznet.Quic.Verify.Retired

/-!
# The number of streams a peer can open

`enforce_stream_limit` bounds the index of a client-initiated stream that a frame opens, and
`retire_closed_streams` raises the bound by one for each of them that closes. As long as every
stream is opened by its own side and no retired one comes back, the entries of `streams_` that the
application did not open stay within the two initial limits.
-/

namespace Spaznet.Quic

open Connection List Option Bool Finset

/-! ## Stream ids -/

def isPeerStream (bidi : Bool) (id : Nat) : Bool := isClientInitiated id && isBidi id == bidi

theorem isPeerStream_iff :
    isPeerStream bidi k = true ↔ k.testBit 0 = false ∧ k.testBit 1 = !bidi := by
  have h0 : k &&& 0x01 = (k.testBit 0).toNat * 1 := Nat.and_two_pow k 0
  have h1 : k &&& 0x02 = (k.testBit 1).toNat * 2 := Nat.and_two_pow k 1
  rw [isPeerStream, isClientInitiated, isBidi, h0, h1]
  cases k.testBit 0 <;> cases k.testBit 1 <;> cases bidi <;> decide

theorem eq_of_index_eq (hi : isPeerStream bidi i = true) (hj : isPeerStream bidi j = true)
    (h : i >>> 2 = j >>> 2) : i = j := by
  rw [isPeerStream_iff] at hi hj
  refine Nat.eq_of_testBit_eq fun n => ?_
  match n with
  | 0 => rw [hi.1, hj.1]
  | 1 => rw [hi.2, hj.2]
  | n + 2 =>
    have hbit := congrArg (Nat.testBit · n) h
    simpa only [Nat.testBit_shiftRight, Nat.add_comm 2 n] using hbit

theorem card_le_of_index_lt (bidi : Bool) {ids : Finset Nat}
    (hkind : ∀ id ∈ ids, isPeerStream bidi id = true)
    (hlt : ∀ id ∈ ids, id >>> 2 < n) : ids.card ≤ n := by
  have hcard : ids.card ≤ (Finset.range n).card :=
    Finset.card_le_card_of_injOn (· >>> 2) (fun id hid => Finset.mem_range.2 (hlt id hid))
      fun i hi j hj hij => eq_of_index_eq (hkind i hi) (hkind j hj) hij
  rwa [card_range] at hcard

theorem countP_client (entries : List (Nat × Stream)) :
    entries.countP (fun e => isClientInitiated e.1) =
      entries.countP (fun e => isPeerStream true e.1) +
        entries.countP fun e => isPeerStream false e.1 := by
  rw [countP_eq_length_filter, length_eq_countP_add_countP fun e => isBidi e.1,
    countP_filter, countP_filter]
  congr 2 <;> funext e <;> cases hb : isBidi e.1 <;> simp [isPeerStream, hb]

namespace Connection

/-! ## Limits by direction -/

def localMaxStreams (c : Connection) (bidi : Bool) : Nat :=
  if bidi then c.localMaxStreamsBidi else c.localMaxStreamsUni

def streamsClosed (c : Connection) (bidi : Bool) : Nat :=
  if bidi then c.streamsBidiClosed else c.streamsUniClosed

end Connection

def TransportParameters.initialMaxStreams (tp : TransportParameters) (bidi : Bool) : Nat :=
  if bidi then tp.initialMaxStreamsBidi else tp.initialMaxStreamsUni

namespace Connection

/-- The peer's streams of one direction that retirement would erase now. -/
def closingIds (c : Connection) (bidi : Bool) : Finset Nat :=
  c.streams.keysWhere fun k s => isPeerStream bidi k && s.terminal k

theorem streamsClosed_retire (c : Connection) (bidi : Bool) :
    c.retireClosedStreams.streamsClosed bidi =
      c.streamsClosed bidi + (c.closingIds bidi).card := by
  rw [closingIds, OrdMap.card_keysWhere]
  cases bidi with
  | true =>
    simp only [streamsClosed, retireClosedStreams, closedStreams, countP_filter, if_true,
      isPeerStream]
    congr 2
    funext e
    cases isBidi e.1 <;> simp
  | false =>
    simp only [streamsClosed, retireClosedStreams, closedStreams, countP_filter,
      isPeerStream, false_eq_true, if_false]
    congr 2
    funext e
    cases isBidi e.1 <;> simp

/-- Retirement raises a limit, and at most to a full window above the closed streams. -/
theorem localMaxStreams_retire (c : Connection) (bidi : Bool) :
    c.localMaxStreams bidi ≤ c.retireClosedStreams.localMaxStreams bidi ∧
      (c.localMaxStreams bidi ≤ c.streamsClosed bidi + c.localTp.initialMaxStreams bidi →
        c.retireClosedStreams.localMaxStreams bidi ≤
          c.retireClosedStreams.streamsClosed bidi + c.localTp.initialMaxStreams bidi) := by
  have hcredit (closed window limit : Nat) (pending : Bool) :
      limit ≤ (creditStreams closed window limit pending).1 ∧
        (limit ≤ closed + window →
          (creditStreams closed window limit pending).1 ≤ closed + window) := by
    unfold creditStreams
    split <;> constructor <;> intros <;> dsimp only at * <;> omega
  have hclosed := c.streamsClosed_retire bidi
  cases bidi with
  | true =>
    have h := hcredit (c.retireClosedStreams.streamsClosed true) c.localTp.initialMaxStreamsBidi
      c.localMaxStreamsBidi c.maxStreamsBidiPending
    exact ⟨h.1, fun hle => h.2 (le_trans hle (by simp [hclosed, TransportParameters.initialMaxStreams]))⟩
  | false =>
    have h := hcredit (c.retireClosedStreams.streamsClosed false) c.localTp.initialMaxStreamsUni
      c.localMaxStreamsUni c.maxStreamsUniPending
    exact ⟨h.1, fun hle => h.2 (le_trans hle (by simp [hclosed, TransportParameters.initialMaxStreams]))⟩

end Connection

/-! ## Who opens which stream -/

def Action.isWrite : Action → Bool
  | .writeStream _ _ _ => true
  | _ => false

theorem Action.Opens.index_lt (h : Action.Opens c k a) (hframe : a.isWrite = false)
    (hn : c.findStream k = none) (hkind : isPeerStream bidi k = true) :
    k >>> 2 < c.localMaxStreams bidi := by
  have hlimit : c.exceedsStreamLimit k = false := by
    cases a with
    | frame level f =>
      cases f with
      | stream f | resetStream f =>
        obtain ⟨rfl, hadm⟩ := h
        simp only [admits, and_eq_true, not_eq_true'] at hadm
        exact hadm.1
      | _ => cases h
    | writeStream => cases hframe
    | _ => cases h
  obtain ⟨hclient, hbidi⟩ := and_eq_true_iff.1 hkind
  rw [exceedsStreamLimit, hclient, hn, eq_of_beq hbidi] at hlimit
  simpa [localMaxStreams] using hlimit

namespace Run

/-- The action that opened the stream with the id for the last time. -/
def openedBy (past : List (Connection × Action)) (k : Nat) : Option Action :=
  (past.find? fun x => (x.1.findStream k).isNone).map Prod.snd

def appOpened (past : List (Connection × Action)) (k : Nat) : Bool :=
  (openedBy past k).any Action.isWrite

/-- A stream that comes into being is opened by its own side and was not retired before. -/
def FairOpening (x : Connection × Action) (past : List (Connection × Action)) : Prop :=
  ∀ k, x.1.faulted = false → x.1.findStream k = none → x.2.Opens x.1 k →
    if x.2.isWrite then isClientInitiated k = false
    else isClientInitiated k = true ∧ ¬ Retired past k

/-- The entries of `streams_` that the application did not open. -/
def peerStreams (r : Run) : List (Nat × Stream) :=
  r.conn.streams.entries.filter fun e => !appOpened r.trace e.1

/-- The streams of one direction that the peer opened: `gone` are the retired ones. -/
structure StreamLedger (tp : TransportParameters) (bidi : Bool) (gone : Finset Nat) (r : Run) :
    Prop where
  closed : r.conn.streamsClosed bidi ≤ gone.card
  retired : ∀ k ∈ gone, isPeerStream bidi k = true ∧ k >>> 2 < r.conn.localMaxStreams bidi ∧
    r.conn.findStream k = none ∧ Retired r.trace k
  live : ∀ k, isPeerStream bidi k = true → r.conn.findStream k ≠ none →
    k >>> 2 < r.conn.localMaxStreams bidi
  limit : r.conn.localMaxStreams bidi ≤ r.conn.streamsClosed bidi + tp.initialMaxStreams bidi
  params : r.conn.localTp = tp

/-- Live and retired streams share the indices below the limit. -/
theorem StreamLedger.card_live (h : StreamLedger tp bidi gone r) :
    r.conn.streams.entries.countP (fun e => isPeerStream bidi e.1) ≤ tp.initialMaxStreams bidi := by
  let live := r.conn.streams.keysWhere fun k _ => isPeerStream bidi k
  have hlive (k : Nat) (hk : k ∈ live) :
      isPeerStream bidi k = true ∧ r.conn.findStream k ≠ none := by
    obtain ⟨s, hs, hkind⟩ := OrdMap.mem_keysWhere.1 hk
    exact ⟨hkind, by rw [findStream, hs]; exact some_ne_none s⟩
  have hdisj : Disjoint live gone :=
    disjoint_left.2 fun k hk hg => (hlive k hk).2 (h.retired k hg).2.2.1
  have hunion : (live ∪ gone).card ≤ r.conn.localMaxStreams bidi := by
    refine card_le_of_index_lt bidi (fun k hk => ?_) fun k hk => ?_
    · exact (mem_union.1 hk).elim (fun hk => (hlive k hk).1) fun hk => (h.retired k hk).1
    · exact (mem_union.1 hk).elim (fun hk => h.live k (hlive k hk).1 (hlive k hk).2)
        fun hk => (h.retired k hk).2.1
  have hcard : live.card = _ := OrdMap.card_keysWhere ..
  rw [card_union_of_disjoint hdisj] at hunion
  have := h.closed
  have := h.limit
  omega

theorem Retired.cons (h : Retired past k) (x : Connection × Action) : Retired (x :: past) k := by
  obtain ⟨y, hy, hret⟩ := h
  exact ⟨y, mem_cons_of_mem _ hy, hret⟩

/-- The peer's id of a stream that a fair step opens: it was not retired, and a frame opens it. -/
theorem FairOpening.peer (h : FairOpening (c, a) past) (hf : c.faulted = false)
    (hn : c.findStream k = none) (hopens : a.Opens c k) (hkind : isPeerStream bidi k = true) :
    a.isWrite = false ∧ ¬ Retired past k := by
  have hclient := (and_eq_true_iff.1 hkind).1
  have hfair := h k hf hn hopens
  cases hwrite : a.isWrite with
  | true =>
    simp only [hwrite, hclient] at hfair
    cases hfair
  | false =>
    simp only [hwrite] at hfair
    exact ⟨rfl, hfair.2⟩

/-- Retirement moves the closing streams from the live to the retired ones. -/
theorem StreamLedger.retire (env : Env) (h : StreamLedger tp bidi gone r) (hf : r.conn.faulted = false) :
    StreamLedger tp bidi (gone ∪ r.conn.closingIds bidi) (r.perform env .retire) := by
  have hconn : (r.perform env .retire).conn = r.conn.retireClosedStreams :=
    perform_of_not_faulted env hf .retire
  have hfind (k : Nat) : r.conn.retireClosedStreams.findStream k =
      (r.conn.findStream k).filter fun s => !s.terminal k := OrdMap.find?_filter _ _ _
  have hdisj : Disjoint gone (r.conn.closingIds bidi) := by
    refine disjoint_left.2 fun k hg hk => ?_
    obtain ⟨s, hs, -⟩ := OrdMap.mem_keysWhere.1 hk
    rw [← findStream, (h.retired k hg).2.2.1] at hs
    cases hs
  obtain ⟨hraise, hbound⟩ := r.conn.localMaxStreams_retire bidi
  constructor
  · rw [hconn, streamsClosed_retire, card_union_of_disjoint hdisj]
    exact Nat.add_le_add_right h.closed _
  · intro k hk
    rw [hconn, hfind]
    rcases mem_union.1 hk with hg | hk
    · obtain ⟨hkind, hlt, hnone, hret⟩ := h.retired k hg
      rw [hnone]
      exact ⟨hkind, lt_of_lt_of_le hlt hraise, rfl, hret.cons _⟩
    obtain ⟨s, hs, hk⟩ := OrdMap.mem_keysWhere.1 hk
    obtain ⟨hkind, hterm⟩ := and_eq_true_iff.1 hk
    have hlive : r.conn.findStream k = some s := hs
    have hlt := h.live k hkind (by rw [hlive]; exact some_ne_none s)
    refine ⟨hkind, lt_of_lt_of_le hlt hraise, ?_, ?_⟩
    · rw [hlive, filter_some_neg (by simp [hterm])]
    · exact ⟨_, mem_cons_self, hf, (and_eq_true_iff.1 hkind).1, s, hlive, hterm⟩
  · intro k hkind hlive
    rw [hconn, hfind] at hlive
    rw [hconn]
    refine lt_of_lt_of_le (h.live k hkind fun hn => hlive ?_) hraise
    rw [hn, filter_none]
  · rw [hconn, ← h.params]
    exact hbound (h.params ▸ h.limit)
  · rw [hconn]
    exact h.params

theorem StreamLedger.step (env : Env) (h : StreamLedger tp bidi gone r) (a : Action)
    (hfair : FairOpening (r.conn, a) r.trace) :
    ∃ gone', StreamLedger tp bidi gone' (r.perform env a) := by
  cases hf : r.conn.faulted with
  | true =>
    have hconn : (r.perform env a).conn = r.conn := perform_of_faulted env hf a
    refine ⟨gone, ?_, ?_, ?_, ?_, ?_⟩
    all_goals rw [hconn]
    · exact h.closed
    · intro k hk
      obtain ⟨hkind, hlt, hnone, hret⟩ := h.retired k hk
      exact ⟨hkind, hlt, hnone, hret.cons _⟩
    · exact h.live
    · exact h.limit
    · exact h.params
  | false =>
    by_cases hretire : a = .retire
    · rw [hretire]
      exact ⟨_, h.retire env hf⟩
    have hconn : (r.perform env a).conn = r.conn.act env a :=
      perform_of_not_faulted env hf a
    have hfixed := r.conn.fixed_act env a
    have hcredit := r.conn.credit_act env hretire
    have hparams : (r.conn.act env a).localTp = r.conn.localTp :=
      congrArg (fun x => x.2.2) hfixed
    have hmax : (r.conn.act env a).localMaxStreams bidi = r.conn.localMaxStreams bidi :=
      congrArg (fun x : (Nat × Nat) × Nat × Nat => if bidi then x.1.1 else x.1.2) hcredit
    have hclosed : (r.conn.act env a).streamsClosed bidi = r.conn.streamsClosed bidi :=
      congrArg (fun x : (Nat × Nat) × Nat × Nat => if bidi then x.2.1 else x.2.2) hcredit
    refine ⟨gone, ?_, ?_, ?_, ?_, ?_⟩
    all_goals rw [hconn]
    · rw [hclosed]
      exact h.closed
    · intro k hk
      obtain ⟨hkind, hlt, hnone, hret⟩ := h.retired k hk
      refine ⟨hkind, hmax ▸ hlt, ?_, hret.cons _⟩
      exact (findStream_act_eq_none_iff env a hnone).2 fun hopens =>
        (hfair.peer hf hnone hopens hkind).2 hret
    · intro k hkind hlive
      rw [hmax]
      by_cases hn : r.conn.findStream k = none
      · have hopens : a.Opens r.conn k := by
          by_contra hno
          exact hlive ((findStream_act_eq_none_iff env a hn).2 hno)
        exact hopens.index_lt (hfair.peer hf hn hopens hkind).1 hn hkind
      · exact h.live k hkind hn
    · rw [hmax, hclosed]
      exact h.limit
    · exact hparams.trans h.params

/-- Streams with the server's ids are the application's. -/
def OwnStreams (r : Run) : Prop :=
  ∀ k, isClientInitiated k = false → r.conn.findStream k ≠ none → appOpened r.trace k = true

theorem OwnStreams.step (env : Env) (h : OwnStreams r) (a : Action)
    (hfair : FairOpening (r.conn, a) r.trace) : OwnStreams (r.perform env a) := by
  intro k hserver hlive
  show appOpened ((r.conn, a) :: r.trace) k = true
  cases hn : r.conn.findStream k with
  | some s =>
    have hpast := h k hserver (by rw [hn]; exact some_ne_none s)
    rw [appOpened, openedBy, find?_cons_of_neg (by simp [hn])]
    exact hpast
  | none =>
    rw [appOpened, openedBy, find?_cons_of_pos (by simp [hn])]
    show a.isWrite = true
    cases hf : r.conn.faulted with
    | true =>
      have hconn : (r.perform env a).conn = r.conn := perform_of_faulted env hf a
      rw [hconn] at hlive
      exact (hlive hn).elim
    | false =>
      have hconn : (r.perform env a).conn = r.conn.act env a :=
        perform_of_not_faulted env hf a
      rw [hconn] at hlive
      have hopens : a.Opens r.conn k := by
        by_contra hno
        exact hlive ((findStream_act_eq_none_iff env a hn).2 hno)
      have hk := hfair k hf hn hopens
      by_contra hwrite
      rw [if_neg hwrite, hserver] at hk
      exact false_ne_true hk.1

/-- **Streams of the peer.** While every stream is opened by its own side and no retired one comes
back, the entries that the application did not open are at most as many as the two initial limits
allow. -/
theorem peerStreams_le (env : Env) (clientDcid clientScid serverScid : Bytes)
    (tp : TransportParameters) (as : List Action)
    (h : AtEach FairOpening (performAll env ⟨.create env clientDcid clientScid serverScid tp, []⟩
      as).trace) :
    (performAll env ⟨.create env clientDcid clientScid serverScid tp, []⟩ as).peerStreams.length ≤
      tp.initialMaxStreamsBidi + tp.initialMaxStreamsUni := by
  have hrun : Reaches env ⟨.create env clientDcid clientScid serverScid tp, []⟩ _ :=
    reaches_performAll _ as
  generalize performAll env ⟨.create env clientDcid clientScid serverScid tp, []⟩ as = r at h hrun ⊢
  have hcount (bidi : Bool) : ∃ gone, StreamLedger tp bidi gone r := by
    refine hrun.invariant_atEach (I := fun r => ∃ gone, StreamLedger tp bidi gone r)
      (fun r a hr hfair => ?_) ⟨∅, ?_⟩ h
    · obtain ⟨gone, hr⟩ := hr
      exact hr.step env a hfair
    · refine ⟨?_, by simp, fun k _ hlive => (hlive rfl).elim, ?_, rfl⟩
      · cases bidi <;> exact le_rfl
      · cases bidi <;> exact Nat.le_add_left _ _
  have hown : OwnStreams r := by
    refine hrun.invariant_atEach (fun r a hr hfair => hr.step env a hfair) ?_ h
    intro k _ hlive
    exact (hlive rfl).elim
  have hclient : r.peerStreams.length ≤
      r.conn.streams.entries.countP fun e => isClientInitiated e.1 := by
    rw [peerStreams, ← countP_eq_length_filter]
    refine countP_mono_left fun e he hpeer => ?_
    by_contra hserver
    have hlive : r.conn.findStream e.1 ≠ none := by
      rw [findStream, OrdMap.mem_entries.1 (show (e.1, e.2) ∈ _ from he)]
      exact some_ne_none _
    rw [hown e.1 (by simpa using hserver) hlive] at hpeer
    cases hpeer
  obtain ⟨_, hbidi⟩ := hcount true
  obtain ⟨_, huni⟩ := hcount false
  calc r.peerStreams.length
      ≤ r.conn.streams.entries.countP fun e => isClientInitiated e.1 := hclient
    _ = (r.conn.streams.entries.countP fun e => isPeerStream true e.1) +
          r.conn.streams.entries.countP fun e => isPeerStream false e.1 := countP_client _
    _ ≤ tp.initialMaxStreamsBidi + tp.initialMaxStreamsUni :=
        Nat.add_le_add hbidi.card_live huni.card_live

/-- The client opens its stream 0 and the application its stream 1. -/
theorem peerStreams_le_one :
    (performAll Env.plain ⟨.create Env.plain [] [] [] { initialMaxStreamsBidi := 1 }, []⟩
      [.frame .application (.stream { streamId := 0 }), .writeStream 1 [] true]).peerStreams.length ≤
        1 := by
  refine peerStreams_le Env.plain [] [] [] { initialMaxStreamsBidi := 1 } _ (atEach_cons.2 ⟨?_,
    atEach_cons.2 ⟨?_, atEach_nil _⟩⟩)
  · rintro k - - rfl
    exact (if_pos rfl).mpr rfl
  · rintro k - - ⟨rfl, -⟩
    exact ⟨rfl, fun ⟨_, hy, _⟩ => by cases hy⟩

/-- The client sends empty STREAM frames on three of the server's ids to a server that allows no
streams at all. -/
def serverIdRun : Run := ofEvents (Env.plainEstablished {})
  (.create (Env.plainEstablished {}) [] [] [] {})
  [.timer, .datagram ([0x40, 0, 0x0a, 1, 0, 0x0a, 5, 0, 0x0a, 9, 0] ++ List.replicate 16 0)]

/-- Each of the frames opens a stream. -/
theorem not_peerStreams_le : ¬ serverIdRun.peerStreams.length ≤
    serverIdRun.conn.localTp.initialMaxStreamsBidi +
      serverIdRun.conn.localTp.initialMaxStreamsUni := by
  decide +kernel

end Run

end Spaznet.Quic
