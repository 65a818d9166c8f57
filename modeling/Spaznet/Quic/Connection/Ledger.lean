import Spaznet.Quic.Connection.Settle

/-!
# Books over the send sides of all streams

An invariant of the send side of one stream usually relates it to three things outside: what the
application wrote, which STREAM frames are outstanding, and which were acknowledged. `SendRules`
lists what such an invariant has to satisfy for the operations of a stream; `Books` is the invariant
for all streams of a connection, and this module shows that acknowledgements, losses, probe timeouts
and sends keep it.
-/

namespace Spaznet.Quic

open List Function Connection

/-- The part of the past that concerns the send side of a stream. -/
structure SendHistory where
  written : Bytes := []
  finWritten : Bool := false
  acked : List StreamFrame := []

namespace SendHistory

def write (h : SendHistory) (s : Stream) (data : Bytes) (fin : Bool) : SendHistory :=
  if s.writable then { h with written := h.written ++ data, finWritten := h.finWritten || fin }
  else h

def ack (h : SendHistory) (sf : StreamFrame) : SendHistory := { h with acked := sf :: h.acked }

end SendHistory

def Stream.Blank (s : Stream) : Prop :=
  s.outbound = Stream.outbound { id := 0, recvLimit := 0, sendLimit := 0 }

/-- What an invariant of the send side has to satisfy. The list holds the outstanding frames of the
stream; `W` is what the invariant asks of writes. -/
structure SendRules (J : SendHistory → List StreamFrame → Stream → Prop)
    (W : Stream → Bytes → Bool → Prop) : Prop where
  congr : J h out s → s'.outbound = s.outbound → J h out s'
  perm : J h out s → out.Perm out' → J h out' s
  write : J h out s → W s data fin → J (h.write s data fin) out (s.write data fin)
  pullSend : J h out s → ∀ maxBytes maxFresh id, ∃ p s',
    s.pullSend maxBytes maxFresh = some (p, s') ∧ J h (p.frames id ++ out) s'
  onAcked : J h (sf :: out) s → ∃ s', s.onAcked sf.offset sf.data.length = some s' ∧
    J (h.ack sf) out s'
  onLost : J h (sf :: out) s → J h out (s.onLost sf.offset sf.data.length)
  /-- A frame of a stream that is no longer there. -/
  stray : s.Blank → J h (sf :: out) s → J h out s ∧ J (h.ack sf) out s
  retire : J h out s → s.sendDone = true ∨ s.sendState = .ready → s'.Blank → J {} out s'

def framesOf (id : Nat) (out : List StreamFrame) : List StreamFrame :=
  out.filter fun sf => sf.streamId = id

theorem framesOf_cons_self (sf : StreamFrame) (out : List StreamFrame) :
    framesOf sf.streamId (sf :: out) = sf :: framesOf sf.streamId out :=
  filter_cons_of_pos (decide_eq_true rfl)

theorem framesOf_cons_ne {id : Nat} (h : sf.streamId ≠ id) (out : List StreamFrame) :
    framesOf id (sf :: out) = framesOf id out :=
  filter_cons_of_neg (by simpa using h)

theorem framesOf_append (id : Nat) (out out' : List StreamFrame) :
    framesOf id (out ++ out') = framesOf id out ++ framesOf id out' := filter_append ..

theorem framesOf_eq_self {id : Nat} (h : ∀ sf ∈ out, sf.streamId = id) : framesOf id out = out :=
  filter_eq_self.2 fun sf hsf => decide_eq_true (h sf hsf)

theorem framesOf_eq_nil {id : Nat} (h : ∀ sf ∈ out, sf.streamId ≠ id) : framesOf id out = [] :=
  filter_eq_nil_iff.2 fun sf hsf => by simpa using h sf hsf

def ackAll (h : Nat → SendHistory) (frames : List StreamFrame) : Nat → SendHistory :=
  frames.foldl (fun h sf => update h sf.streamId ((h sf.streamId).ack sf)) h

namespace Connection

/-- The invariant for every stream, open or not. -/
def Books (J : SendHistory → List StreamFrame → Stream → Prop) (h : Nat → SendHistory)
    (out : List StreamFrame) (c : Connection) : Prop :=
  ∀ id, J (h id) (framesOf id out) (c.streamOrNew id)

theorem streamOrNew_of_findStream {c : Connection} {id : Nat} (h : c.findStream id = some s) :
    c.streamOrNew id = s := by rw [streamOrNew, h, Option.getD_some]

theorem blank_streamOrNew {c : Connection} {id : Nat} (h : c.findStream id = none) :
    (c.streamOrNew id).Blank := by
  rw [streamOrNew, h]
  rfl

theorem outbound_of_findStream {c c' : Connection} {id : Nat}
    (h : c'.findStream id = c.findStream id) :
    (c'.streamOrNew id).outbound = (c.streamOrNew id).outbound := by
  cases hs : c.findStream id with
  | some s =>
    rw [hs] at h
    rw [streamOrNew_of_findStream hs, streamOrNew_of_findStream h]
  | none =>
    rw [hs] at h
    exact (blank_streamOrNew h).trans (blank_streamOrNew hs).symm

theorem outbound_streamOrNew {c c' : Connection} (h : c'.streams = c.streams) (id : Nat) :
    (c'.streamOrNew id).outbound = (c.streamOrNew id).outbound :=
  outbound_of_findStream (by rw [findStream, h]; rfl)

theorem streamOrNew_setStream {c : Connection} (h : c.findStream k = some s) (s' : Stream)
    (id : Nat) :
    ({ c with streams := c.streams.modify k fun _ => s' } : Connection).streamOrNew id =
      if id = k then s' else c.streamOrNew id := by
  unfold streamOrNew findStream
  rw [OrdMap.find?_modify]
  split
  next hid => rw [hid, show c.streams.find? k = some s from h, Option.map_some, Option.getD_some]
  next => rfl

section
variable {J : SendHistory → List StreamFrame → Stream → Prop} {W : Stream → Bytes → Bool → Prop}
  (rules : SendRules J W) {h : Nat → SendHistory} {out out' : List StreamFrame} {c c' : Connection}
include rules

theorem Books.congr (hb : Books J h out c)
    (heq : ∀ id, (c'.streamOrNew id).outbound = (c.streamOrNew id).outbound) : Books J h out c' :=
  fun id => rules.congr (hb id) (heq id)

theorem Books.perm (hb : Books J h out c) (hp : out.Perm out') : Books J h out' c :=
  fun id => rules.perm (hb id) (hp.filter _)

omit rules in
theorem Books.updateStream (hb : Books J h (sf :: out) c)
    (hlive : ∀ {s}, J (h sf.streamId) (sf :: framesOf sf.streamId out) s →
      ∃ s', f s = some s' ∧ J h' (framesOf sf.streamId out) s')
    (hstray : ∀ {s}, s.Blank → J (h sf.streamId) (sf :: framesOf sf.streamId out) s →
      J h' (framesOf sf.streamId out) s) :
    Books J (update h sf.streamId h') out (c.updateStream sf.streamId f) ∧
      (c.updateStream sf.streamId f).faulted = c.faulted := by
  have hself := hb sf.streamId
  rw [framesOf_cons_self] at hself
  have hother (id : Nat) (hid : id ≠ sf.streamId) :
      J (update h sf.streamId h' id) (framesOf id out) (c.streamOrNew id) := by
    have := hb id
    rwa [framesOf_cons_ne hid.symm, ← update_of_ne hid h' h] at this
  unfold Connection.updateStream
  cases hs : c.findStream sf.streamId with
  | none =>
    refine ⟨fun id => ?_, rfl⟩
    by_cases hid : id = sf.streamId
    · subst hid
      rw [update_self]
      exact hstray (blank_streamOrNew hs) hself
    · exact hother id hid
  | some s =>
    rw [streamOrNew_of_findStream hs] at hself
    obtain ⟨s', hs', hJ⟩ := hlive hself
    dsimp only
    rw [hs']
    refine ⟨fun id => ?_, rfl⟩
    rw [streamOrNew_setStream hs]
    by_cases hid : id = sf.streamId
    · subst hid
      rw [if_pos rfl, update_self]
      exact hJ
    · rw [if_neg hid]
      exact hother id hid

theorem Books.streamAcked (hb : Books J h (sf :: out) c) :
    Books J (update h sf.streamId ((h sf.streamId).ack sf)) out (c.streamAcked sf) ∧
      (c.streamAcked sf).faulted = c.faulted :=
  hb.updateStream (fun hJ => rules.onAcked hJ) fun hblank hJ => (rules.stray hblank hJ).2

theorem Books.streamLost (hb : Books J h (sf :: out) c) :
    Books J h out (c.streamLost sf) ∧ (c.streamLost sf).faulted = c.faulted := by
  have hlost : Books J (update h sf.streamId (h sf.streamId)) out (c.streamLost sf) ∧ _ :=
    hb.updateStream (fun hJ => ⟨_, rfl, rules.onLost hJ⟩)
      fun hblank hJ => (rules.stray hblank hJ).1
  rwa [update_eq_self] at hlost

theorem Books.foldl_streamAcked (hb : Books J h (frames ++ out) c) :
    Books J (ackAll h frames) out (frames.foldl Connection.streamAcked c) ∧
      (frames.foldl Connection.streamAcked c).faulted = c.faulted := by
  induction frames generalizing h c with
  | nil => exact ⟨hb, rfl⟩
  | cons sf frames ih =>
    obtain ⟨hfirst, hfault⟩ := hb.streamAcked rules
    obtain ⟨hrest, hfault'⟩ := ih hfirst
    exact ⟨hrest, hfault'.trans hfault⟩

theorem Books.foldl_streamLost (hb : Books J h (frames ++ out) c) :
    Books J h out (frames.foldl Connection.streamLost c) ∧
      (frames.foldl Connection.streamLost c).faulted = c.faulted := by
  induction frames generalizing c with
  | nil => exact ⟨hb, rfl⟩
  | cons sf frames ih =>
    obtain ⟨hfirst, hfault⟩ := hb.streamLost rules
    obtain ⟨hrest, hfault'⟩ := ih hfirst
    exact ⟨hrest, hfault'.trans hfault⟩

end

/-! ## Acknowledging and losing packets -/

section
variable {J : SendHistory → List StreamFrame → Stream → Prop} {W : Stream → Bytes → Bool → Prop}
  {h : Nat → SendHistory} {rest : List StreamFrame} {c : Connection} {env : Env}
  {level : EncryptionLevel}

/-- A loop that settles packets in flight one by one and erases each. -/
theorem Books.foldl_entries
    (hstep : ∀ {h c e}, Books J h (flight c.sent ++ rest) c → e ∈ (c.sent level).entries →
      Books J (g h e) (flight (f c e).sent ++ rest) (f c e) ∧ (f c e).faulted = c.faulted)
    (hsent : ∀ c e, (f c e).sent = update c.sent level ((c.sent level).erase e.1))
    (es : List (Nat × SentRecord)) (hes : es.Sublist (c.sent level).entries)
    (hb : Books J h (flight c.sent ++ rest) c) :
    Books J (es.foldl g h) (flight (es.foldl f c).sent ++ rest) (es.foldl f c) ∧
      (es.foldl f c).faulted = c.faulted ∧ SentLe (es.foldl f c) c ∧
      ∀ pn, (∀ e ∈ es, e.1 ≠ pn) →
        ((es.foldl f c).sent level).find? pn = (c.sent level).find? pn := by
  obtain ⟨hbooks, hfault, hle⟩ := Connection.foldl_entries (g := g)
    (I := fun h c' => Books J h (flight c'.sent ++ rest) c' ∧ c'.faulted = c.faulted ∧ SentLe c' c)
    hsent es (fun h c' e _ he hI => by
      obtain ⟨hbooks, hfault⟩ := hstep hI.1 he
      exact ⟨hbooks, hfault.trans hI.2.1, (sentLe_erase (hsent c' e)).trans hI.2.2⟩)
    hes ⟨hb, rfl, .refl c⟩
  refine ⟨hbooks, hfault, hle, fun pn hpn => ?_⟩
  rw [find?_sent_foldl hsent, if_neg]
  intro hmem
  obtain ⟨e, he, heq⟩ := mem_map.1 hmem
  exact hpn e he heq

variable (rules : SendRules J W)
include rules

theorem Books.ackEntry (hb : Books J h (flight c.sent ++ rest) c) (he : e ∈ (c.sent level).entries) :
    Books J (ackAll h e.2.streams) (flight (ackEntry env level c e).sent ++ rest)
        (ackEntry env level c e) ∧
      (ackEntry env level c e).faulted = c.faulted := by
  have hout := hb.perm rules ((flight_erase he).append_right rest)
  rw [append_assoc] at hout
  obtain ⟨hacked, hfault⟩ := hout.foldl_streamAcked rules
  refine ⟨?_, hfault⟩
  rw [sent_ackEntry]
  exact hacked.congr rules (outbound_streamOrNew rfl)

theorem Books.loseEntry (hb : Books J h (flight c.sent ++ rest) c)
    (he : e ∈ (c.sent level).entries) :
    Books J h (flight (loseEntry env level c e).sent ++ rest)
        (loseEntry env level c e) ∧
      (loseEntry env level c e).faulted = c.faulted := by
  have hout := hb.perm rules ((flight_erase he).append_right rest)
  rw [append_assoc] at hout
  obtain ⟨hlost, hfault⟩ := hout.foldl_streamLost rules
  have hstreams : (Connection.loseEntry env level c e).streams =
      (e.2.streams.foldl Connection.streamLost c).streams := by
    unfold Connection.loseEntry declareLost setSent
    split <;> rfl
  have hfault' : (Connection.loseEntry env level c e).faulted =
      (e.2.streams.foldl Connection.streamLost c).faulted := by
    unfold Connection.loseEntry declareLost setSent
    split <;> rfl
  refine ⟨?_, hfault'.trans hfault⟩
  rw [sent_loseEntry]
  exact hlost.congr rules (outbound_streamOrNew hstreams)

theorem settles_books (env : Env) (h : Nat → SendHistory) (rest : List StreamFrame)
    (c : Connection) : Settles env (fun c' => Books J h (flight c'.sent ++ rest) c' ∧
      c'.faulted = c.faulted ∧ SentLe c' c) fun _ => False where
  ack _ _ hA := hA.elim
  lose {c' level e} hI he := by
    obtain ⟨hbooks, hfault⟩ := hI.1.loseEntry rules he
    exact ⟨hbooks, hfault.trans hI.2.1,
      (sentLe_erase (sent_loseEntry c' env level e)).trans hI.2.2⟩
  note _ _ _ hI := ⟨hI.1.congr rules (outbound_streamOrNew rfl), hI.2⟩

omit rules in
theorem ackAll_append (h : Nat → SendHistory) (frames frames' : List StreamFrame) :
    ackAll h (frames ++ frames') = ackAll (ackAll h frames) frames' := foldl_append

omit rules in
theorem foldl_ackAll (h : Nat → SendHistory) (es : List (Nat × SentRecord)) :
    es.foldl (fun h e => ackAll h e.2.streams) h = ackAll h (es.flatMap fun e => e.2.streams) := by
  induction es generalizing h with
  | nil => rfl
  | cons e es ih => rw [foldl_cons, ih, flatMap_cons, ackAll_append]

/-- The packets of a level in some intervals were acknowledged: `frames` are the STREAM frames they
carried. -/
def Carried (c : Connection) (level : EncryptionLevel) (intervals : List (Nat × Nat))
    (frames : List StreamFrame) : Prop :=
  ∀ sf, sf ∈ frames ↔ ∃ pn r, (c.sent level).find? pn = some r ∧
    (∃ i ∈ intervals, i.1 ≤ pn ∧ pn ≤ i.2) ∧ sf ∈ r.streams

section
variable (hb : Books J h (flight c.sent ++ rest) c)
include hb

section
variable (env : Env) (level : EncryptionLevel)

theorem Books.ackRange (i : Nat × Nat) : ∃ frames, Carried c level [i] frames ∧
      Books J (ackAll h frames) (flight (ackRange env level c i).sent ++ rest)
        (ackRange env level c i) ∧
      (ackRange env level c i).faulted = c.faulted ∧
      SentLe (ackRange env level c i) c ∧
      ∀ pn, ¬ (i.1 ≤ pn ∧ pn ≤ i.2) →
        ((ackRange env level c i).sent level).find? pn = (c.sent level).find? pn := by
  have hfold := hb.foldl_entries (g := fun h e => ackAll h e.2.streams)
    (fun hb he => hb.ackEntry rules he) (fun c e => sent_ackEntry c env level e)
    ((c.sent level).entries.filter fun e => i.1 ≤ e.1 && e.1 ≤ i.2) filter_sublist
  obtain ⟨hbooks, hfault, hle, hkeep⟩ := hfold
  rw [foldl_ackAll] at hbooks
  refine ⟨_, fun sf => ?_, hbooks, hfault, hle, fun pn hpn => hkeep pn fun e he heq => ?_⟩
  · simp only [mem_flatMap, mem_filter, mem_singleton, exists_eq_left,
      Bool.and_eq_true, decide_eq_true_eq]
    constructor
    · rintro ⟨⟨pn, r⟩, ⟨he, hin⟩, hsf⟩
      exact ⟨pn, r, OrdMap.mem_entries.1 he, hin, hsf⟩
    · rintro ⟨pn, r, hfind, hin, hsf⟩
      exact ⟨(pn, r), ⟨OrdMap.mem_entries.2 hfind, hin⟩, hsf⟩
  · have hin := (mem_filter.1 he).2
    simp only [Bool.and_eq_true, decide_eq_true_eq] at hin
    exact hpn (heq ▸ hin)

theorem Books.ackRanges (intervals : List (Nat × Nat)) :
    ∃ frames, Carried c level intervals frames ∧
      Books J (ackAll h frames)
        (flight (intervals.foldl (Connection.ackRange env level) c).sent ++ rest)
        (intervals.foldl (Connection.ackRange env level) c) ∧
      (intervals.foldl (Connection.ackRange env level) c).faulted = c.faulted ∧
      SentLe (intervals.foldl (Connection.ackRange env level) c) c := by
  induction intervals generalizing h c with
  | nil => exact ⟨[], fun sf => by simp, hb, rfl, .refl c⟩
  | cons i intervals ih =>
    obtain ⟨frames, hcarried, hfirst, hfault, hle, hkeep⟩ := hb.ackRange rules env level i
    obtain ⟨frames', hcarried', hrest, hfault', hle'⟩ := ih hfirst
    rw [← ackAll_append] at hrest
    refine ⟨frames ++ frames', fun sf => ?_, hrest, hfault'.trans hfault, hle'.trans hle⟩
    rw [mem_append, hcarried, hcarried']
    constructor
    · rintro (⟨pn, r, hfind, ⟨j, hj, hin⟩, hsf⟩ | ⟨pn, r, hfind, ⟨j, hj, hin⟩, hsf⟩)
      · exact ⟨pn, r, hfind, ⟨i, mem_cons_self, mem_singleton.1 hj ▸ hin⟩, hsf⟩
      · exact ⟨pn, r, hle level pn r hfind, ⟨j, mem_cons_of_mem _ hj, hin⟩, hsf⟩
    · rintro ⟨pn, r, hfind, ⟨j, hj, hin⟩, hsf⟩
      by_cases hi : i.1 ≤ pn ∧ pn ≤ i.2
      · exact .inl ⟨pn, r, hfind, ⟨i, mem_singleton_self i, hi⟩, hsf⟩
      · have hj : j ∈ intervals := (mem_cons.1 hj).resolve_left fun heq => hi (heq ▸ hin)
        exact .inr ⟨pn, r, (hkeep pn hi).trans hfind, ⟨j, hj, hin⟩, hsf⟩

/-- **ACK frames.** The frames of the packets that are covered and in flight are acknowledged, and
packets are taken out of flight. -/
theorem Books.onAckFrame (f : AckFrame) : ∃ frames, Carried c level f.intervals frames ∧
      Books J (ackAll h frames) (flight (c.onAckFrame env level f).sent ++ rest)
        (c.onAckFrame env level f) ∧
      (c.onAckFrame env level f).faulted = c.faulted ∧ SentLe (c.onAckFrame env level f) c := by
  obtain ⟨spaces, hnote⟩ := c.noteLargestAcked_eq level f.largestAcked
  have hnoted : Books J h (flight ({ c with spaces } : Connection).sent ++ rest)
      { c with spaces } := hb.congr rules (outbound_streamOrNew rfl)
  obtain ⟨frames, hcarried, hacked⟩ := hnoted.ackRanges rules env level f.intervals
  refine ⟨frames, hcarried, (settles_books rules env _ rest c).finishAck c level f ?_⟩
  rw [hnote]
  exact hacked

end

theorem Books.checkPto (env : Env) :
    Books J h (flight (c.checkPto env).sent ++ rest) (c.checkPto env) ∧
      (c.checkPto env).faulted = c.faulted ∧ SentLe (c.checkPto env) c :=
  (settles_books rules env h rest c).checkPto ⟨hb, rfl, .refl c⟩

end

end

end Connection

end Spaznet.Quic
