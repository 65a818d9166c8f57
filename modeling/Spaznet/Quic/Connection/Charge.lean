import Mathlib.Order.Interval.Finset.Nat
import Spaznet.Quic.Connection.Flight

/-!
# What a packet is charged for

STREAM frames are pulled stream by stream. Each pull serves lost ranges, which cost nothing, or
fresh bytes, by which `send_next_offset_` and `conn_send_total_` grow. If the bytes on the wire are
those below the next offsets, then the total grows by the number of bytes that are not on the wire
yet.
-/

namespace Spaznet.Quic

open Ranges List

/-- The bytes that STREAM frames carry, as pairs of a stream id and an offset. -/
def bytesOf (frames : List StreamFrame) : Finset (Nat × Nat) :=
  frames.foldr
    (fun sf bytes => (Finset.range sf.data.length).image (fun i => (sf.streamId, sf.offset + i)) ∪
      bytes) ∅

theorem mem_bytesOf {frames : List StreamFrame} {id i : Nat} :
    (id, i) ∈ bytesOf frames ↔ ∃ sf ∈ frames, sf.streamId = id ∧ Within sf.range i := by
  induction frames with
  | nil => simp [bytesOf]
  | cons sf frames ih =>
    have hhead : (id, i) ∈ (Finset.range sf.data.length).image
        (fun i => (sf.streamId, sf.offset + i)) ↔ sf.streamId = id ∧ Within sf.range i := by
      simp only [Finset.mem_image, Finset.mem_range, Prod.mk.injEq, Within, StreamFrame.range]
      constructor
      · rintro ⟨j, hj, hid, rfl⟩
        exact ⟨hid, by omega⟩
      · rintro ⟨hid, hlo, hhi⟩
        exact ⟨i - sf.offset, by omega, hid, by omega⟩
    rw [bytesOf, foldr_cons, Finset.mem_union, hhead, exists_mem_cons_iff]
    exact or_congr_right ih

theorem bytesOf_append (frames frames' : List StreamFrame) :
    bytesOf (frames ++ frames') = bytesOf frames ∪ bytesOf frames' := by
  ext ⟨id, i⟩
  simp only [Finset.mem_union, mem_bytesOf, mem_append, or_and_right, exists_or]

theorem bytesOf_congr {frames frames' : List StreamFrame} (h : ∀ sf, sf ∈ frames ↔ sf ∈ frames') :
    bytesOf frames = bytesOf frames' := by
  ext ⟨id, i⟩
  simp only [mem_bytesOf, h]

theorem card_union_sdiff [DecidableEq α] (s t w : Finset α) :
    ((s ∪ t) \ w).card = (s \ w).card + (t \ (w ∪ s)).card := by
  have hsplit : (s ∪ t) \ w = (s \ w) ∪ (t \ (w ∪ s)) := by
    ext x
    simp only [Finset.mem_sdiff, Finset.mem_union]
    tauto
  rw [hsplit, Finset.card_union_of_disjoint]
  rw [Finset.disjoint_left]
  intro x hx hx'
  simp only [Finset.mem_sdiff, Finset.mem_union] at hx hx'
  tauto

namespace Stream

/-- What a sequence of pulls does to a stream from which it makes `frames`. -/
structure Pulls (id : Nat) (s s' : Stream) (frames : List StreamFrame) : Prop where
  limit : s'.sendLimit = s.sendLimit
  mono : s.sendNextOffset ≤ s'.sendNextOffset
  le_limit : s'.sendNextOffset ≤ max s.sendNextOffset s.sendLimit
  lost : ∀ i, Covers s'.lostRanges i → Covers s.lostRanges i
  carries : ∀ sf ∈ frames, sf.streamId = id ∧ ∀ i, Within sf.range i →
    Covers s.lostRanges i ∨ s.sendNextOffset ≤ i ∧ i < s'.sendNextOffset
  fresh : ∀ i, s.sendNextOffset ≤ i → i < s'.sendNextOffset → ∃ sf ∈ frames, Within sf.range i

namespace Pulls

theorem refl (id : Nat) (s : Stream) : Pulls id s s [] :=
  ⟨rfl, le_rfl, le_max_left .., fun _ h => h, fun _ h => absurd h not_mem_nil,
    fun _ h h' => absurd h' (Nat.not_lt_of_ge h)⟩

variable {s s' s'' : Stream} {frames frames' : List StreamFrame} {id : Nat}

theorem trans (h : Pulls id s s' frames) (h' : Pulls id s' s'' frames') :
    Pulls id s s'' (frames ++ frames') where
  limit := h'.limit.trans h.limit
  mono := h.mono.trans h'.mono
  le_limit := by
    have := h'.le_limit
    rw [h.limit] at this
    have := h.le_limit
    omega
  lost i hi := h.lost i (h'.lost i hi)
  carries sf hsf := by
    rcases mem_append.1 hsf with hsf | hsf
    · obtain ⟨hid, hcarries⟩ := h.carries sf hsf
      refine ⟨hid, fun i hi => (hcarries i hi).imp_right fun hfresh => ?_⟩
      exact ⟨hfresh.1, hfresh.2.trans_le h'.mono⟩
    · obtain ⟨hid, hcarries⟩ := h'.carries sf hsf
      refine ⟨hid, fun i hi => (hcarries i hi).imp (h.lost i) fun hfresh => ?_⟩
      exact ⟨h.mono.trans hfresh.1, hfresh.2⟩
  fresh i hlo hhi := by
    by_cases hi : i < s'.sendNextOffset
    · obtain ⟨sf, hsf, hin⟩ := h.fresh i hlo hi
      exact ⟨sf, mem_append_left _ hsf, hin⟩
    · obtain ⟨sf, hsf, hin⟩ := h'.fresh i (Nat.le_of_not_lt hi) hhi
      exact ⟨sf, mem_append_right _ hsf, hin⟩

theorem next_of_nil (h : Pulls id s s' []) : s'.sendNextOffset = s.sendNextOffset := by
  refine le_antisymm (Nat.le_of_not_lt fun hlt => ?_) h.mono
  obtain ⟨_, hsf, -⟩ := h.fresh s.sendNextOffset le_rfl hlt
  exact absurd hsf not_mem_nil

end Pulls

theorem Pull.mem_frames {p : Pull} {id : Nat} (h : sf ∈ p.frames id) :
    sf.streamId = id ∧ sf.range = (p.offset, p.data.length) := by
  unfold Pull.frames at h
  split at h
  · exact absurd h not_mem_nil
  · rw [mem_singleton.1 h]
    exact ⟨rfl, rfl⟩

theorem PullStep.pulls {s s' : Stream} (h : PullStep s maxBytes maxFresh p s') (id : Nat) :
    Pulls id s s' (p.frames id) := by
  cases h with
  | nothing => exact .refl id _
  | finOnly =>
    refine ⟨rfl, le_rfl, le_max_left .., fun _ h => h, fun sf hsf => ?_,
      fun _ h h' => absurd h' (Nat.not_lt_of_ge h)⟩
    obtain ⟨hid, hrange⟩ := Pull.mem_frames hsf
    refine ⟨hid, fun i hi => ?_⟩
    rw [hrange] at hi
    exact absurd hi (not_within_zero _ i)
  | @lost r rest data hmax hlost hlen =>
    refine ⟨rfl, le_rfl, le_max_left .., fun i hi => ?_, fun sf hsf => ?_,
      fun _ h h' => absurd h' (Nat.not_lt_of_ge h)⟩
    · rw [hlost, covers_cons]
      split at hi
      · exact .inr hi
      refine (covers_cons.1 hi).imp_left fun hin => ?_
      simp only [Within] at hin ⊢
      omega
    · obtain ⟨hid, hrange⟩ := Pull.mem_frames hsf
      refine ⟨hid, fun i hi => .inl ?_⟩
      rw [hrange] at hi
      rw [hlost, covers_cons]
      simp only [Within] at hi ⊢
      omega
  | @fresh take data htake hlost hlen hbudget hlimit =>
    refine ⟨rfl, Nat.le_add_right .., hlimit.trans (le_max_right ..), fun _ h => h,
      fun sf hsf => ?_, fun i hlo hhi => ?_⟩
    · obtain ⟨hid, hrange⟩ := Pull.mem_frames hsf
      refine ⟨hid, fun i hi => .inr ?_⟩
      rwa [hrange, hlen] at hi
    · rw [Pull.frames, if_neg fun h => htake h.1]
      refine ⟨_, mem_singleton.2 rfl, hlo, ?_⟩
      dsimp only [StreamFrame.range] at hhi ⊢
      rwa [hlen]

theorem PullStep.next_le (h : PullStep s maxBytes maxFresh p s') :
    s'.sendNextOffset - s.sendNextOffset ≤ min maxBytes maxFresh ∧
      (s.lostRanges ≠ [] → s'.sendNextOffset = s.sendNextOffset) := by
  cases h with
  | nothing | finOnly | lost => exact ⟨by simp, fun _ => rfl⟩
  | fresh htake hlost hlen hbudget =>
    refine ⟨?_, fun hne => absurd hlost hne⟩
    dsimp only
    omega

end Stream

namespace Connection

variable (c : Connection) (env : Env) (level : EncryptionLevel)

/-- What pulling one stream does to the totals of a packet. -/
structure Gathers (k : Nat) (g g' : Gather) (s s' : Stream) (frames : List StreamFrame) :
    Prop where
  out : g'.frames = g.frames ++ frames
  total : g'.total = g.total + (s'.sendNextOffset - s.sendNextOffset)
  budget : g'.total + g'.budget ≤ g.total + g.budget
  pulls : Stream.Pulls k s s' frames

theorem Gathers.refl (k : Nat) (g : Gather) (s : Stream) : Gathers k g g s s [] :=
  ⟨(append_nil _).symm, by simp, le_rfl, .refl k s⟩

theorem Gathers.trans (h : Gathers k g g' s s' frames) (h' : Gathers k g' g'' s' s'' frames') :
    Gathers k g g'' s s'' (frames ++ frames') where
  out := by rw [h'.out, h.out, append_assoc]
  total := by
    have := h.pulls.mono
    have := h'.pulls.mono
    rw [h'.total, h.total]
    omega
  budget := h'.budget.trans h.budget
  pulls := h.pulls.trans h'.pulls

theorem Pulled.gathers (h : Pulled k budget g s r frames) (hbudget : budget ≤ 2 ^ 64) :
    Gathers k g r.1 s r.2 frames := by
  induction h with
  | done => exact .refl k _ _
  | fault => exact ⟨(append_nil _).symm, by simp, le_rfl, .refl k _⟩
  | @nothing p s' _ g s h hp =>
    have hpulls := (Stream.pullSend_step h).pulls k
    rw [Stream.Pull.frames, if_pos hp] at hpulls
    refine ⟨(append_nil _).symm, ?_, le_rfl, hpulls⟩
    show g.total = g.total + (s'.sendNextOffset - s.sendNextOffset)
    rw [hpulls.next_of_nil]
    omega
  | @chunk p s' _ _ _ g s h hp _ _ ih =>
    have hstep := Stream.pullSend_step h
    have hpulls := hstep.pulls k
    have hfresh := hstep.next_le.1
    rw [Stream.Pull.frames, if_neg hp] at hpulls
    refine .trans ⟨rfl, rfl, ?_, hpulls⟩ (ih (by omega))
    have hsub := Word64.sub_le_sub (a := g.budget) (b := s'.sendNextOffset - s.sendNextOffset)
      (by omega) (by omega)
    dsimp only [Gather.add]
    omega

/-- The bytes of a stream on the wire are those below its next offset; lost ranges lie there. -/
structure OnWire (wire : Finset (Nat × Nat)) (k : Nat) (s : Stream) : Prop where
  sent : ∀ i, (k, i) ∈ wire ↔ i < s.sendNextOffset
  lost : ∀ i, Covers s.lostRanges i → i < s.sendNextOffset

namespace OnWire

variable {wire wire' : Finset (Nat × Nat)} {s s' : Stream} {frames : List StreamFrame}

section
variable (h : OnWire wire k s)
include h

theorem congr (heq : ∀ i, (k, i) ∈ wire' ↔ (k, i) ∈ wire) : OnWire wire' k s :=
  ⟨fun i => (heq i).trans (h.sent i), h.lost⟩

theorem union (hframes : ∀ sf ∈ frames, sf.streamId ≠ k) : OnWire (wire ∪ bytesOf frames) k s := by
  refine h.congr fun i => ?_
  rw [Finset.mem_union, mem_bytesOf]
  refine or_iff_left ?_
  rintro ⟨sf, hsf, hid, -⟩
  exact hframes sf hsf hid

theorem pulls (hp : Stream.Pulls k s s' frames) : OnWire (wire ∪ bytesOf frames) k s' where
  sent i := by
    rw [Finset.mem_union, h.sent, mem_bytesOf]
    have hmono := hp.mono
    constructor
    · rintro (hi | ⟨sf, hsf, -, hin⟩)
      · omega
      · rcases (hp.carries sf hsf).2 i hin with hlost | hfresh
        · have := h.lost i hlost
          omega
        · exact hfresh.2
    · intro hi
      by_cases hold : i < s.sendNextOffset
      · exact .inl hold
      · obtain ⟨sf, hsf, hin⟩ := hp.fresh i (Nat.le_of_not_lt hold) hi
        exact .inr ⟨sf, hsf, (hp.carries sf hsf).1, hin⟩
  lost i hi := (h.lost i (hp.lost i hi)).trans_le hp.mono

theorem card_pulls (hp : Stream.Pulls k s s' frames) :
    (bytesOf frames \ wire).card = s'.sendNextOffset - s.sendNextOffset := by
  have hnew : bytesOf frames \ wire =
      (Finset.Ico s.sendNextOffset s'.sendNextOffset).image fun i => (k, i) := by
    ext ⟨id, i⟩
    have hafter := (h.pulls hp).sent i
    rw [Finset.mem_union] at hafter
    simp only [Finset.mem_sdiff, Finset.mem_image, Finset.mem_Ico, Prod.mk.injEq]
    constructor
    · rintro ⟨hin, hnot⟩
      obtain ⟨sf, hsf, hid, -⟩ := mem_bytesOf.1 hin
      have hk : k = id := (hp.carries sf hsf).1.symm.trans hid
      subst hk
      rw [h.sent] at hnot
      exact ⟨i, ⟨Nat.le_of_not_lt hnot, hafter.1 (.inr hin)⟩, rfl, rfl⟩
    · rintro ⟨j, ⟨hlo, hhi⟩, rfl, rfl⟩
      have hnot : (k, j) ∉ wire := fun hin => absurd ((h.sent j).1 hin) (Nat.not_lt_of_ge hlo)
      exact ⟨(hafter.2 hhi).resolve_left hnot, hnot⟩
  rw [hnew, Finset.card_image_of_injective _ fun i j hij => (Prod.mk.inj hij).2, Nat.card_Ico]

end

end OnWire

theorem Gathered.charged (h : Gathered g l r frames) (hl : l.Pairwise (·.1 < ·.1)) :
    r.1.total + r.1.budget ≤ g.total + g.budget ∧
      (∀ e' ∈ r.2, ∃ s own, (e'.1, s) ∈ l ∧ Stream.Pulls e'.1 s e'.2 own) ∧
      ∀ wire, (∀ e ∈ l, OnWire wire e.1 e.2) →
        r.1.total = g.total + (bytesOf frames \ wire).card ∧
        ∀ e' ∈ r.2, OnWire (wire ∪ bytesOf frames) e'.1 e'.2 := by
  induction h with
  | nil =>
    exact ⟨le_rfl, fun _ h => absurd h not_mem_nil,
      fun _ _ => ⟨by simp [bytesOf], fun _ h => absurd h not_mem_nil⟩⟩
  | @cons e g g' s' own l g'' l' rest hown hrest ih =>
    obtain ⟨hhead, htail⟩ := pairwise_cons.1 hl
    obtain ⟨hbudget, hpulls, hwire⟩ := ih htail
    have hids := hown.out.2
    have hown := hown.gathers (by decide)
    refine ⟨hbudget.trans hown.budget, forall_mem_cons.2 ⟨?_, ?_⟩, fun wire honwire => ?_⟩
    · exact ⟨e.2, own, mem_cons_self, hown.pulls⟩
    · intro e' he'
      obtain ⟨s, own', hs, hp⟩ := hpulls e' he'
      exact ⟨s, own', mem_cons_of_mem _ hs, hp⟩
    · -- the tail starts from a wire that carries the frames of the head
      obtain ⟨hfirst, hothers⟩ := forall_mem_cons.1 honwire
      obtain ⟨htotal, hafter⟩ := hwire (wire ∪ bytesOf own) fun e' he' =>
        (hothers e' he').union fun sf hsf => by rw [hids sf hsf]; exact (hhead e' he').ne
      rw [bytesOf_append, card_union_sdiff, ← Finset.union_assoc]
      refine ⟨?_, forall_mem_cons.2 ⟨?_, hafter⟩⟩
      · rw [htotal, hown.total, hfirst.card_pulls hown.pulls, Nat.add_assoc]
      · refine (hfirst.pulls hown.pulls).union fun sf hsf heq => ?_
        obtain ⟨e', he', hid⟩ := hrest.out.2 sf hsf
        exact absurd (hid.symm.trans heq) (hhead e' he').ne'

/-- What a packet that carries `frames` costs: limits are respected, and the total grows by the
bytes that are new on the wire. -/
structure Charged (c c' : Connection) (frames : List StreamFrame) : Prop where
  maxData : c.connSendMaxData ≤ c'.connSendMaxData ∧
    c'.connSendMaxData ≤ max c.connSendMaxData c.peerTp.initialMaxData
  total_le : c'.connSendTotal ≤ max c.connSendTotal c'.connSendMaxData
  streams : ∀ id s', c'.findStream id = some s' → ∃ s own, c.findStream id = some s ∧
    Stream.Pulls id s s' own
  live : ∀ sf ∈ frames, c.findStream sf.streamId ≠ none
  onWire : ∀ wire, (∀ id s, c.findStream id = some s → OnWire wire id s) →
    c'.connSendTotal = c.connSendTotal + (bytesOf frames \ wire).card ∧
      ∀ id s', c'.findStream id = some s' → OnWire (wire ∪ bytesOf frames) id s'

def charge (c : Connection) : Nat × Nat × OrdMap Stream × Nat :=
  (c.connSendMaxData, c.connSendTotal, c.streams, c.peerTp.initialMaxData)

theorem Charged.refl : Charged c c [] where
  maxData := ⟨le_rfl, le_max_left ..⟩
  total_le := le_max_left ..
  streams id s' hs' := ⟨s', [], hs', .refl id s'⟩
  live _ h := absurd h not_mem_nil
  onWire wire h := ⟨by simp [bytesOf], fun id s' hs' => by simpa [bytesOf] using h id s' hs'⟩

theorem Charged.congr {c d c' d' : Connection} {frames : List StreamFrame}
    (h : Charged c d frames) (hc : c'.charge = c.charge) (hd : d'.charge = d.charge) :
    Charged c' d' frames := by
  simp only [charge, Prod.mk.injEq] at hc hd
  obtain ⟨hcmax, hctotal, hcstreams, hcpeer⟩ := hc
  obtain ⟨hdmax, hdtotal, hdstreams, -⟩ := hd
  have hcfind : c'.findStream = c.findStream := by unfold findStream; rw [hcstreams]
  have hdfind : d'.findStream = d.findStream := by unfold findStream; rw [hdstreams]
  constructor
  · rw [hcmax, hdmax, hcpeer]
    exact h.maxData
  · rw [hdtotal, hctotal, hdmax]
    exact h.total_le
  · rw [hcfind, hdfind]
    exact h.streams
  · rw [hcfind]
    exact h.live
  · rw [hcfind, hdfind, hctotal, hdtotal]
    exact h.onWire

theorem charged_collectStreams : Charged c c.collectStreams.2 c.collectStreams.1 := by
  let g : Gather := { total := c.connSendTotal
                      budget := max c.connSendMaxData c.peerTp.initialMaxData - c.connSendTotal }
  obtain ⟨frames, hgathered⟩ := gathered g c.streams.entries
  obtain ⟨hbudget, hpulls, hwire⟩ := hgathered.charged c.streams.sorted
  have hfst : c.collectStreams.1 = frames := hgathered.out.1
  have htotal : c.collectStreams.2.connSendTotal =
      (OrdMap.mapAccumList gatherStream g c.streams.entries).1.total := rfl
  have hmax : c.collectStreams.2.connSendMaxData =
      max c.connSendMaxData c.peerTp.initialMaxData := rfl
  have hlive {id : Nat} {s' : Stream} (hs' : c.collectStreams.2.findStream id = some s') :
      (id, s') ∈ (OrdMap.mapAccumList gatherStream g c.streams.entries).2 :=
    OrdMap.mem_entries.2 hs'
  rw [hfst]
  refine ⟨⟨?_, hmax.le⟩, ?_, fun id s' hs' => ?_, fun sf hsf => ?_, fun wire honwire => ?_⟩
  · rw [hmax]
    exact le_max_left ..
  · have hg : g.total + g.budget = c.connSendTotal +
        (max c.connSendMaxData c.peerTp.initialMaxData - c.connSendTotal) := rfl
    omega
  · obtain ⟨s, own, hs, hp⟩ := hpulls (id, s') (hlive hs')
    exact ⟨s, own, OrdMap.mem_entries.1 hs, hp⟩
  · obtain ⟨e, he, heq⟩ := hgathered.out.2 sf hsf
    have hfind : c.findStream e.1 = some e.2 := OrdMap.mem_entries.1 he
    rw [heq, hfind]
    exact Option.some_ne_none _
  · obtain ⟨hcount, hafter⟩ := hwire wire fun e he => honwire e.1 e.2 (OrdMap.mem_entries.1 he)
    exact ⟨htotal.trans hcount, fun id s' hs' => hafter (id, s') (hlive hs')⟩

theorem charged_collect : Charged c (c.collect level).2 (c.collect level).1.streams := by
  have hack (d : Connection) : (d.collectAck level).2.charge = d.charge := by
    obtain ⟨_, h⟩ := d.collectAck_eq level
    rw [h]
    rfl
  unfold collect
  split
  · exact (charged_collectStreams _).congr rfl (hack _)
  · exact (Charged.refl c).congr rfl (hack _)

/-- **Charging.** A call of `build_and_send` charges for the frames of the packet that goes out, or
for frames of a packet that was meant to. -/
theorem charged_buildAndSend :
    ∃ frames, Charged c (c.buildAndSend env level).conn frames ∧
      (c.pendingClose = none ∧ (c.buildAndSend env level).datagram.isSome = true →
        frames = (c.collect level).1.streams) ∧
      ((c.buildAndSend env level).conn.faulted = false → ∀ sf ∈ frames,
        ∃ next, c.nextFrames level = some next ∧ Frame.stream sf ∈ next) := by
  have hnone (res : SendResult) (hcharge : res.conn.charge = c.charge)
      (hout : ¬ (c.pendingClose = none ∧ res.datagram.isSome = true)) :
      ∃ frames, Charged c res.conn frames ∧
        (c.pendingClose = none ∧ res.datagram.isSome = true →
          frames = (c.collect level).1.streams) ∧
        (res.conn.faulted = false → ∀ sf ∈ frames,
          ∃ next, c.nextFrames level = some next ∧ Frame.stream sf ∈ next) :=
    ⟨[], (Charged.refl c).congr rfl hcharge, fun h => absurd h hout,
      fun _ _ h => absurd h not_mem_nil⟩
  have hcollect := c.charged_collect level
  refine c.sends_rule env level fun res hsends => ?_
  cases hsends with
  | idle => exact hnone _ rfl (by simp)
  | closeLost _ hclose | close hclose => exact hnone _ rfl fun h => hclose h.1
  | drained hopen _ hskip =>
    refine ⟨_, hcollect, nofun, fun hfault sf hsf => ?_⟩
    cases hframes : c.nextFrames level with
    | none =>
      have hdefined : (c.collect level).2.faulted = false := hfault
      have hempty : (c.collect level).1.isEmpty = true := by simpa [hdefined] using hskip hframes
      rw [streams_of_isEmpty hempty] at hsf
      exact absurd hsf not_mem_nil
    | some frames => exact ⟨frames, rfl, (stream_mem_nextFrames hframes sf).2 ⟨hopen, hsf⟩⟩
  | lost hopen hframes | sent hopen hframes =>
    exact ⟨_, hcollect.congr rfl rfl, fun _ => rfl, fun _ sf hsf =>
      ⟨_, hframes, (stream_mem_nextFrames hframes sf).2 ⟨hopen, hsf⟩⟩⟩

end Connection

end Spaznet.Quic
