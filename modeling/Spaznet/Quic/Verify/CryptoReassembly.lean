import Spaznet.Quic.Connection.Plain
import Spaznet.Quic.Stream.Reassembly

/-!
# CRYPTO reassembly

Fragments of the handshake are buffered by offset and fed to TLS in order. A fragment replaces what
is buffered at its offset, also when it is the shorter one: the bytes that it cuts off are lost
unless another buffered fragment holds them. Then the bytes fed stop short of what was received. The window bounds where a
fragment ends; how much is buffered it bounds only as long as no fragments overlap.
-/

namespace Spaznet.Quic

open Ranges Spaznet.Quic.Stream List OrdMap

instance (chunks : List (Nat × Bytes)) (i : Nat) : Decidable (Buffers chunks i) :=
  inferInstanceAs (Decidable (∃ c ∈ chunks, Within (c.1, c.2.length) i))

/-- A connection that receives CRYPTO frames at one level, with the ranges of the frames received so
far. -/
structure CryptoSession where
  conn : Connection
  received : List (Nat × Nat) := []

namespace CryptoSession

section
variable (level : EncryptionLevel)

def step (x : CryptoSession) (f : CryptoFrame) : CryptoSession where
  conn := x.conn.onCryptoFrame level f
  received := (f.offset, f.data.length) :: x.received

/-- The frame is a slice of `S` and passes the window check. -/
def Accepts (S : Bytes) (x : CryptoSession) (f : CryptoFrame) : Prop :=
  IsSlice S f.offset f.data ∧ Word64.add f.offset f.data.length ≤
    (x.conn.spaces level).cryptoReadOffset + kMaxCryptoWindow
  deriving Decidable

/-- The bytes handed to TLS are the longest initial segment of `S` that the frames cover. -/
def InOrder (S : Bytes) (x : CryptoSession) : Prop :=
  x.conn.tls.inData level = S.take (coveredPrefix S.length x.received)

/-- What the frame cuts off a longer fragment at its offset, other buffered fragments hold. -/
def KeepsBytes (x : CryptoSession) (f : CryptoFrame) : Prop :=
  let chunks := (x.conn.spaces level).cryptoRecv
  ∀ d ∈ chunks.find? f.offset, ∀ i < d.length, f.data.length ≤ i →
    Buffers (chunks.erase f.offset).entries (f.offset + i)

instance (x : CryptoSession) (f : CryptoFrame) : Decidable (KeepsBytes level x f) := by
  unfold KeepsBytes
  infer_instance

end

end CryptoSession

/-! ## Feeding -/

namespace Connection

theorem above_feedChunks (hsorted : chunks.Pairwise (·.1 < ·.1))
    (level : EncryptionLevel) (readOffset : Nat) (t : TlsConnection) :
    let res := feedChunks level readOffset t chunks
    readOffset ≤ res.1 ∧ ∀ e ∈ chunks.drop res.2.2, res.1 < e.1 := by
  induction chunks generalizing readOffset t with
  | nil => exact ⟨Nat.le_refl _, forall_mem_nil _⟩
  | cons chunk rest ih =>
    obtain ⟨hhead, htail⟩ := pairwise_cons.1 hsorted
    unfold feedChunks
    split
    next hhole =>
      exact ⟨Nat.le_refl _, forall_mem_cons.2 ⟨hhole, fun e he => hhole.trans (hhead e he)⟩⟩
    split
    · exact ih htail readOffset t
    · obtain ⟨hle, habove⟩ := ih htail _ _
      exact ⟨(Nat.le_add_right ..).trans hle, habove⟩

/-- What feeding leaves: TLS has an initial segment of `S`, the fragments left lie beyond it, and no
byte is lost or made up. -/
structure Fed (S : Bytes) (level : EncryptionLevel) (readOffset : Nat) (chunks : List (Nat × Bytes))
    (res : Nat × TlsConnection × Nat) : Prop where
  le : readOffset ≤ res.1
  read_le : res.1 ≤ S.length
  read_eq : res.2.1.inData level = S.take res.1
  above : ∀ e ∈ chunks.drop res.2.2, res.1 < e.1
  holds : ∀ i, i < res.1 ∨ Buffers (chunks.drop res.2.2) i ↔ i < readOffset ∨ Buffers chunks i

/-- A fragment that is used up, in part or whole, before the rest is fed. -/
theorem Fed.cons (H : Fed S level mid rest (r, t, n)) (hle : readOffset ≤ mid)
    (hstart : chunk.1 ≤ readOffset) (hmid : mid = max readOffset (chunk.1 + chunk.2.length)) :
    Fed S level readOffset (chunk :: rest) (r, t, n + 1) := by
  refine ⟨hle.trans H.le, H.read_le, H.read_eq, H.above, fun i => (H.holds i).trans ?_⟩
  rw [buffers_cons, ← or_assoc]
  refine or_congr_left ?_
  simp only [Within]
  omega

theorem fed_feedChunks (hsorted : chunks.Pairwise (·.1 < ·.1))
    (hslice : ∀ e ∈ chunks, IsSlice S e.1 e.2) (hle : readOffset ≤ S.length)
    (hread : t.inData level = S.take readOffset) :
    Fed S level readOffset chunks (feedChunks level readOffset t chunks) := by
  induction chunks generalizing readOffset t with
  | nil => exact ⟨Nat.le_refl _, hle, hread, by simp, fun i => Iff.rfl⟩
  | cons chunk rest ih =>
    obtain ⟨offset, data⟩ := chunk
    obtain ⟨hhead, htail⟩ := pairwise_cons.1 hsorted
    have hrest : ∀ e ∈ rest, IsSlice S e.1 e.2 := fun e he => hslice e (mem_cons_of_mem _ he)
    have hdata : IsSlice S offset data := hslice _ (mem_cons_self)
    unfold feedChunks
    split
    next hhole =>
      refine ⟨Nat.le_refl _, hle, hread, ?_, fun i => Iff.rfl⟩
      exact forall_mem_cons.2 ⟨hhole, fun e he => hhole.trans (hhead e he)⟩
    next hstart =>
      split
      next hdup =>
        exact (ih htail hrest hle hread).cons (Nat.le_refl _) (Nat.le_of_not_lt hstart) (by simp; omega)
      next hnew =>
        have hk : readOffset - offset ≤ data.length := by omega
        have hslice' := hdata.drop hk
        rw [Nat.add_sub_cancel' (Nat.le_of_not_lt hstart)] at hslice'
        have hread' : (t.deliverCrypto level (data.drop (readOffset - offset))).inData level =
            S.take (readOffset + (data.drop (readOffset - offset)).length) := by
          rw [← hslice'.take_append, ← hread]
          exact if_pos rfl
        refine (ih htail hrest hslice'.1 hread').cons (Nat.le_add_right ..)
          (Nat.le_of_not_lt hstart) ?_
        simp only [length_drop]
        omega

/-- TLS has an initial segment of `S`, and the fragments buffered beyond it are slices of `S` inside
the window. -/
structure CryptoOk (S : Bytes) (level : EncryptionLevel) (c : Connection) : Prop where
  read_le : (c.spaces level).cryptoReadOffset ≤ S.length
  read_eq : c.tls.inData level = S.take (c.spaces level).cryptoReadOffset
  slices : ∀ e ∈ (c.spaces level).cryptoRecv.entries, IsSlice S e.1 e.2 ∧
    e.1 + e.2.length ≤ (c.spaces level).cryptoReadOffset + kMaxCryptoWindow
  above : ∀ e ∈ (c.spaces level).cryptoRecv.entries, (c.spaces level).cryptoReadOffset < e.1

/-- The byte was handed to TLS or is buffered. -/
def HoldsCrypto (level : EncryptionLevel) (c : Connection) (i : Nat) : Prop :=
  i < (c.spaces level).cryptoReadOffset ∨ Buffers (c.spaces level).cryptoRecv.entries i

theorem CryptoOk.not_holds (h : CryptoOk S level c) :
    ¬ HoldsCrypto level c (c.spaces level).cryptoReadOffset := by
  rintro (hlt | ⟨e, he, hin⟩)
  · exact Nat.lt_irrefl _ hlt
  · exact Nat.not_le_of_lt (h.above e he) hin.1

theorem feedTlsCrypto_eq (c : Connection) (level : EncryptionLevel) :
    let sp := c.spaces level
    let res := feedChunks level sp.cryptoReadOffset c.tls sp.cryptoRecv.entries
    (c.feedTlsCrypto level).tls = res.2.1 ∧
      ((c.feedTlsCrypto level).spaces level).cryptoReadOffset = res.1 ∧
      ((c.feedTlsCrypto level).spaces level).cryptoRecv = sp.cryptoRecv.drop res.2.2 := by
  unfold feedTlsCrypto
  dsimp only
  rw [Function.update_self]
  exact ⟨rfl, rfl, rfl⟩

theorem onCryptoFrame_eq {c : Connection} (hend : f.offset + f.data.length < 2 ^ 64)
    (hwindow : f.offset + f.data.length ≤ (c.spaces level).cryptoReadOffset + kMaxCryptoWindow) :
    let sp := c.spaces level
    let res := feedChunks level sp.cryptoReadOffset c.tls (sp.cryptoRecv.insert f.offset f.data).entries
    (c.onCryptoFrame level f).tls = res.2.1 ∧
      ((c.onCryptoFrame level f).spaces level).cryptoReadOffset = res.1 ∧
      ((c.onCryptoFrame level f).spaces level).cryptoRecv.entries =
        (sp.cryptoRecv.insert f.offset f.data).entries.drop res.2.2 := by
  have hfeed := feedTlsCrypto_eq (c.setSpace level { c.spaces level with
    cryptoRecv := (c.spaces level).cryptoRecv.insert f.offset f.data }) level
  rw [spaces_setSpace_self] at hfeed
  unfold onCryptoFrame
  rw [Word64.add_eq hend, if_neg (Nat.not_lt.2 hwindow)]
  exact ⟨hfeed.1, hfeed.2.1, congrArg entries hfeed.2.2⟩

/-- One accepted fragment: it replaces what is buffered at its offset, and nothing else is lost. -/
theorem CryptoOk.onCryptoFrame {c : Connection} (h : CryptoOk S level c) (hS : S.length < 2 ^ 64)
    (hslice : IsSlice S f.offset f.data) (hwindow : Word64.add f.offset f.data.length ≤
      (c.spaces level).cryptoReadOffset + kMaxCryptoWindow) :
    CryptoOk S level (c.onCryptoFrame level f) ∧
      (c.spaces level).cryptoReadOffset ≤
        ((c.onCryptoFrame level f).spaces level).cryptoReadOffset ∧
      ∀ i, HoldsCrypto level (c.onCryptoFrame level f) i ↔
        Within (f.offset, f.data.length) i ∨ i < (c.spaces level).cryptoReadOffset ∨
          Buffers ((c.spaces level).cryptoRecv.erase f.offset).entries i := by
  have hend := hslice.1.trans_lt hS
  rw [Word64.add_eq hend] at hwindow
  set sp := c.spaces level with hsp
  -- the fragments before feeding
  have hslices (e : Nat × Bytes) (he : e ∈ (sp.cryptoRecv.insert f.offset f.data).entries) :
      IsSlice S e.1 e.2 ∧ e.1 + e.2.length ≤ sp.cryptoReadOffset + kMaxCryptoWindow := by
    rcases mem_insert.1 he with rfl | he
    · exact ⟨hslice, hwindow⟩
    · exact h.slices e (mem_of_mem_filter he)
  have hbuffers (i : Nat) : Buffers (sp.cryptoRecv.insert f.offset f.data).entries i ↔
      Within (f.offset, f.data.length) i ∨
        Buffers (sp.cryptoRecv.erase f.offset).entries i := by
    simp only [Buffers, mem_insert, or_and_right, exists_or, exists_eq_left]
  have hfed := fed_feedChunks (sp.cryptoRecv.insert f.offset f.data).sorted
    (fun e he => (hslices e he).1) h.read_le h.read_eq
  obtain ⟨htls, hoffset, hentries⟩ := onCryptoFrame_eq hend hwindow
  refine ⟨⟨?_, ?_, fun e he => ?_, fun e he => ?_⟩, ?_, fun i => ?_⟩
  · rw [hoffset]
    exact hfed.read_le
  · rw [htls, hoffset]
    exact hfed.read_eq
  · rw [hentries] at he
    obtain ⟨hs, hw⟩ := hslices e (mem_of_mem_drop he)
    rw [hoffset]
    exact ⟨hs, hw.trans (Nat.add_le_add_right hfed.le _)⟩
  · rw [hentries] at he
    rw [hoffset]
    exact hfed.above e he
  · rw [hoffset]
    exact hfed.le
  · unfold HoldsCrypto
    rw [hoffset, hentries, ← or_left_comm, ← hbuffers]
    exact hfed.holds i

end Connection

namespace CryptoSession

variable {S : Bytes} {level : EncryptionLevel}
variable {x : CryptoSession}

/-- Every byte received was handed to TLS or is buffered. -/
structure Inv (S : Bytes) (level : EncryptionLevel) (x : CryptoSession) : Prop where
  ok : x.conn.CryptoOk S level
  covers : ∀ i, Covers x.received i ↔ x.conn.HoldsCrypto level i

theorem inOrder_of_not_covers (h : x.conn.CryptoOk S level)
    (hcov : ∀ i < (x.conn.spaces level).cryptoReadOffset, Covers x.received i)
    (hstop : ¬ Covers x.received (x.conn.spaces level).cryptoReadOffset) : x.InOrder level S := by
  unfold InOrder
  rw [coveredPrefix_eq h.read_le hcov (.inr hstop), h.read_eq]

theorem readOffset_of_inOrder (h : x.conn.CryptoOk S level) (horder : x.InOrder level S) :
    (x.conn.spaces level).cryptoReadOffset = coveredPrefix S.length x.received := by
  have hlen := congrArg length (h.read_eq.symm.trans horder)
  rwa [length_take_of_le h.read_le, length_take_of_le (coveredPrefix_le ..)] at hlen

theorem Inv.inOrder (h : Inv S level x) : x.InOrder level S :=
  inOrder_of_not_covers h.ok (fun i hi => (h.covers i).2 (.inl hi))
    fun hcov => h.ok.not_holds ((h.covers _).1 hcov)

theorem buffers_split (x : CryptoSession) (level : EncryptionLevel) (offset i : Nat) :
    Buffers (x.conn.spaces level).cryptoRecv.entries i ↔
      (∃ d ∈ (x.conn.spaces level).cryptoRecv.find? offset, Within (offset, d.length) i) ∨
        Buffers ((x.conn.spaces level).cryptoRecv.erase offset).entries i := by
  constructor
  · rintro ⟨⟨k, d⟩, he, hin⟩
    by_cases hk : k = offset
    · subst hk
      exact .inl ⟨d, mem_entries.1 he, hin⟩
    · refine .inr ⟨(k, d), ?_, hin⟩
      rw [mem_entries, find?_erase, if_neg hk, ← mem_entries]
      exact he
  · rintro (⟨d, hd, hin⟩ | ⟨e, he, hin⟩)
    · exact ⟨(offset, d), mem_entries.2 hd, hin⟩
    · exact ⟨e, mem_of_mem_filter he, hin⟩

section
variable (h : Inv S level x) (hS : S.length < 2 ^ 64) (ha : x.Accepts level S f)
include h hS ha

theorem Inv.step (hk : x.KeepsBytes level f) : Inv S level (x.step level f) := by
  obtain ⟨hok, -, hholds⟩ := h.ok.onCryptoFrame hS ha.1 ha.2
  refine ⟨hok, fun i => ?_⟩
  show Covers ((f.offset, f.data.length) :: x.received) i ↔ _
  rw [covers_cons, h.covers, Connection.HoldsCrypto, x.buffers_split level f.offset]
  refine Iff.trans ?_ (hholds i).symm
  constructor
  · rintro (hin | hlt | ⟨d, hd, hin⟩ | hrest)
    · exact .inl hin
    · exact .inr (.inl hlt)
    · -- the byte was in the fragment that is replaced
      by_cases hnew : i < f.offset + f.data.length
      · exact .inl ⟨hin.1, hnew⟩
      have hlost := hk d hd (i - f.offset) (by simp only [Within] at hin; omega) (by omega)
      rw [Nat.add_sub_cancel' hin.1] at hlost
      exact .inr (.inr hlost)
    · exact .inr (.inr hrest)
  · rintro (hin | hlt | hrest)
    · exact .inl hin
    · exact .inr (.inl hlt)
    · exact .inr (.inr (.inr hrest))

theorem Inv.readOffset_step (hbeyond : (x.conn.spaces level).cryptoReadOffset < f.offset) :
    ((x.step level f).conn.spaces level).cryptoReadOffset =
      (x.conn.spaces level).cryptoReadOffset := by
  obtain ⟨-, hle, hholds⟩ := h.ok.onCryptoFrame hS ha.1 ha.2
  refine Nat.le_antisymm (Nat.le_of_not_lt fun hlt => ?_) hle
  rcases (hholds _).1 (.inl hlt) with hin | hlt' | ⟨e, he, hin⟩
  · exact Nat.not_le_of_lt hbeyond hin.1
  · exact Nat.lt_irrefl _ hlt'
  · exact Nat.not_le_of_lt (h.ok.above e (mem_of_mem_filter he)) hin.1

/-- What a frame loses does not show before a later frame reaches it. -/
theorem Inv.inOrder_step : (x.step level f).InOrder level S := by
  by_cases hbeyond : (x.conn.spaces level).cryptoReadOffset < f.offset
  · have hoffset := h.readOffset_step hS ha hbeyond
    obtain ⟨hok, -, -⟩ := h.ok.onCryptoFrame hS ha.1 ha.2
    refine inOrder_of_not_covers hok (fun i hi => ?_) fun hcov => ?_
    · rw [hoffset] at hi
      exact covers_cons.2 (.inr ((h.covers i).2 (.inl hi)))
    · rw [hoffset] at hcov
      rcases covers_cons.1 hcov with hin | hcov
      · exact Nat.not_le_of_lt hbeyond hin.1
      · exact h.ok.not_holds ((h.covers _).1 hcov)
  · -- no fragment is buffered at or below the read offset
    refine (h.step hS ha fun d hd => ?_).inOrder
    exact absurd (h.ok.above _ (mem_entries.2 hd)) hbeyond

/-- If a frame loses bytes, the frame that closes the gap before them shows it. -/
theorem Inv.exists_not_inOrder (hk : ¬ x.KeepsBytes level f) :
    ∃ g, (x.step level f).Accepts level S g ∧
      ¬ ((x.step level f).step level g).InOrder level S := by
  simp only [KeepsBytes, not_forall] at hk
  obtain ⟨d, hd, i, hi, hle, hlost⟩ := hk
  have hmem := mem_entries.2 hd
  have hbeyond := h.ok.above _ hmem
  obtain ⟨hslice, hwindow⟩ := h.ok.slices _ hmem
  have hoffset := h.readOffset_step hS ha hbeyond
  obtain ⟨hok, -, hholds⟩ := h.ok.onCryptoFrame hS ha.1 ha.2
  dsimp only at hbeyond hslice hwindow
  set p := f.offset + i with hp
  set r := (x.conn.spaces level).cryptoReadOffset with hr
  have hplen : p < S.length := by have := hslice.1; omega
  -- the byte at `p` is nowhere
  have hgone : ¬ (x.step level f).conn.HoldsCrypto level p := by
    rw [show (x.step level f).conn = x.conn.onCryptoFrame level f from rfl, hholds]
    rintro (hin | hlt | hrest)
    · simp only [Within] at hin
      omega
    · omega
    · exact hlost hrest
  -- the gap from the read offset up to `p`
  let g : CryptoFrame := { offset := r, data := (S.drop r).take (p - r) }
  have hlen : g.data.length = p - r := by
    simp only [g, length_take, length_drop]
    omega
  have hgslice : IsSlice S g.offset g.data := by
    refine ⟨?_, ?_⟩
    · rw [hlen]
      show r + (p - r) ≤ S.length
      omega
    · rw [hlen]
  have hgend : Word64.add g.offset g.data.length ≤
      ((x.step level f).conn.spaces level).cryptoReadOffset + kMaxCryptoWindow := by
    refine (Word64.add_le ..).trans ?_
    rw [hlen]
    show r + (p - r) ≤ _
    omega
  refine ⟨g, ⟨hgslice, hgend⟩, fun horder => ?_⟩
  obtain ⟨hok', -, hholds'⟩ := hok.onCryptoFrame hS hgslice hgend
  -- everything up to `p` was received
  have hcovered : p < coveredPrefix S.length ((x.step level f).step level g).received := by
    refine lt_coveredPrefix hplen fun j hj => ?_
    show Covers ((g.offset, g.data.length) :: (f.offset, f.data.length) :: x.received) j
    rw [covers_cons, covers_cons, h.covers]
    by_cases hjr : j < r
    · exact .inr (.inr (.inl hjr))
    rcases Nat.eq_or_lt_of_le hj with heq | hlt
    · refine .inr (.inr (.inr ⟨(f.offset, d), hmem, ?_⟩))
      simp only [Within]
      omega
    · refine .inl ?_
      rw [hlen]
      show r ≤ j ∧ j < r + (p - r)
      omega
  rw [← readOffset_of_inOrder hok' horder] at hcovered
  rcases (hholds' p).1 (.inl hcovered) with hin | hlt | ⟨e, he, hin⟩
  · rw [hlen] at hin
    have := hin.2
    simp only [g] at this
    omega
  · exact hgone (.inl hlt)
  · exact hgone (.inr ⟨e, mem_of_mem_filter he, hin⟩)

end

/-- After a frame, and after any frame that may follow, the bytes handed to TLS are in order. -/
def StaysInOrder (S : Bytes) (level : EncryptionLevel) (x : CryptoSession) (f : CryptoFrame) :
    Prop :=
  (x.step level f).InOrder level S ∧ ∀ g, (x.step level f).Accepts level S g →
    ((x.step level f).step level g).InOrder level S

theorem Inv.staysInOrder_iff (h : Inv S level x) (hS : S.length < 2 ^ 64)
    (ha : x.Accepts level S f) : StaysInOrder S level x f ↔ x.KeepsBytes level f := by
  constructor
  · rintro ⟨-, hnext⟩
    by_contra hk
    obtain ⟨g, hg, hbad⟩ := h.exists_not_inOrder hS ha hk
    exact hbad (hnext g hg)
  · intro hk
    have hstep := h.step hS ha hk
    exact ⟨hstep.inOrder, fun g hg => hstep.inOrder_step hS hg⟩

theorem Inv.run_iff (h : Inv S level x) (hS : S.length < 2 ^ 64)
    (ha : Machine.AllSteps (CryptoSession.step level) (Accepts level S) x frames) :
    Machine.AllSteps (CryptoSession.step level) (StaysInOrder S level) x frames ↔
      Machine.AllSteps (CryptoSession.step level) (KeepsBytes level) x frames := by
  refine Machine.allSteps_congr (I := Inv S level) ?_ ?_ h ha
  · intro x f h ha
    exact h.staysInOrder_iff hS ha
  · intro x f h ha _ hk
    exact h.step hS ha hk

/-- **CRYPTO reassembly.** In a run of CRYPTO frames at one level that are slices of `S` and pass the
window check, the bytes handed to TLS are at each step, and whatever slice comes next, the longest
initial segment of `S` that was received, exactly if no frame cuts bytes off a longer fragment
buffered at its offset that no other buffered fragment holds. -/
theorem crypto_in_order_iff (S : Bytes) (hS : S.length < 2 ^ 64) (level : EncryptionLevel)
    (env : Env) (clientDcid clientScid serverScid : Bytes) (tp : TransportParameters)
    (frames : List CryptoFrame)
    (ha : Machine.AllSteps (step level) (Accepts level S)
      ⟨.create env clientDcid clientScid serverScid tp, []⟩ frames) :
    Machine.AllSteps (step level) (StaysInOrder S level)
        ⟨.create env clientDcid clientScid serverScid tp, []⟩ frames ↔
      Machine.AllSteps (step level) (KeepsBytes level)
        ⟨.create env clientDcid clientScid serverScid tp, []⟩ frames := by
  have hinit : Inv S level ⟨.create env clientDcid clientScid serverScid tp, []⟩ := by
    cases level <;> exact ⟨⟨Nat.zero_le _, rfl, nofun, nofun⟩, fun i => ⟨nofun, by
      rintro (hlt | ⟨e, he, -⟩)
      · cases hlt
      · cases he⟩⟩
  exact hinit.run_iff hS ha

def plain : CryptoSession := ⟨.create Env.plain [] [] [] {}, []⟩

/-- Fragments out of order and overlapping; the third is the shorter one at its offset, but what it
cuts off is in the second. -/
theorem crypto_in_order_overlap :
    Machine.AllSteps (step .initial) (StaysInOrder [1, 2, 3, 4, 5, 6] .initial) plain
      [⟨2, [3, 4, 5, 6]⟩, ⟨4, [5, 6]⟩, ⟨2, [3, 4]⟩, ⟨0, [1, 2, 3]⟩, ⟨0, [1, 2]⟩] :=
  (crypto_in_order_iff [1, 2, 3, 4, 5, 6] (by decide) .initial Env.plain [] [] [] {} _
    (by decide +kernel)).2 (by decide +kernel)

/-- A fragment that is sent again in a shorter piece before the gap in front of it is closed. -/
theorem crypto_loses_bytes : ∃ (S : Bytes) (frames : List CryptoFrame),
    Machine.AllSteps (step .initial) (Accepts .initial S) plain frames ∧
      ¬ (Machine.run (step .initial) plain frames).InOrder .initial S := by
  refine ⟨[1, 2, 3, 4], [⟨1, [2, 3, 4]⟩, ⟨1, [2]⟩, ⟨0, [1]⟩], by decide +kernel, ?_⟩
  unfold InOrder
  decide +kernel

/-! ## How much is buffered -/

def held (level : EncryptionLevel) (x : CryptoSession) : Nat :=
  ((x.conn.spaces level).cryptoRecv.entries.map (·.2.length)).sum

/-- The frame does not wrap around, and it overlaps none of the fragments it leaves buffered. -/
def Apart (level : EncryptionLevel) (x : CryptoSession) (f : CryptoFrame) : Prop :=
  f.offset + f.data.length < 2 ^ 64 ∧
    ∀ e ∈ ((x.conn.spaces level).cryptoRecv.erase f.offset).entries,
      e.1 + e.2.length ≤ f.offset ∨ f.offset + f.data.length ≤ e.1
  deriving Decidable

/-- The buffered fragments are apart and lie in the window. -/
structure Bounded (level : EncryptionLevel) (x : CryptoSession) : Prop where
  inside : ∀ e ∈ (x.conn.spaces level).cryptoRecv.entries,
    (x.conn.spaces level).cryptoReadOffset ≤ e.1 ∧
      e.1 + e.2.length ≤ (x.conn.spaces level).cryptoReadOffset + kMaxCryptoWindow
  apart : ∀ d ∈ (x.conn.spaces level).cryptoRecv.entries,
    ∀ e ∈ (x.conn.spaces level).cryptoRecv.entries, d.1 < e.1 → d.1 + d.2.length ≤ e.1

theorem Bounded.held_le (h : Bounded level x) : x.held level ≤ kMaxCryptoWindow := by
  refine (sum_length_le (Nat.le_add_right _ _) ?_ h.inside).trans (Nat.add_sub_cancel_left ..).le
  exact (x.conn.spaces level).cryptoRecv.sorted.imp_of_mem fun hd he => h.apart _ hd _ he

theorem Bounded.step (h : Bounded level x) (hf : x.Apart level f) : Bounded level (x.step level f) := by
  by_cases hwindow : f.offset + f.data.length ≤
      (x.conn.spaces level).cryptoReadOffset + kMaxCryptoWindow
  · obtain ⟨-, hoffset, hentries⟩ := Connection.onCryptoFrame_eq hf.1 hwindow
    obtain ⟨hle, habove⟩ := Connection.above_feedChunks
      ((x.conn.spaces level).cryptoRecv.insert f.offset f.data).sorted level
      (x.conn.spaces level).cryptoReadOffset x.conn.tls
    have hold {e : Nat × Bytes} (he : e ∈ ((x.step level f).conn.spaces level).cryptoRecv.entries) :=
      mem_insert.1 (mem_of_mem_drop (hentries ▸ he))
    refine ⟨fun e he => ⟨?_, ?_⟩, fun d hd e he hlt => ?_⟩
    · exact hoffset ▸ (habove e (hentries ▸ he)).le
    · refine le_trans ?_ (Nat.add_le_add_right (hoffset ▸ hle) _)
      rcases hold he with rfl | he
      · exact hwindow
      · exact (h.inside e (mem_of_mem_filter he)).2
    · rcases hold hd with rfl | hd
      · rcases hold he with rfl | he
        · exact absurd hlt (Nat.lt_irrefl _)
        · have := hf.2 e he
          dsimp only at hlt ⊢
          omega
      · rcases hold he with rfl | he
        · have := hf.2 d hd
          dsimp only at hlt ⊢
          omega
        · exact h.apart d (mem_of_mem_filter hd) e (mem_of_mem_filter he) hlt
  · have hsame : (x.step level f).conn.spaces = x.conn.spaces := by
      show (x.conn.onCryptoFrame level f).spaces = _
      unfold Connection.onCryptoFrame
      rw [Word64.add_eq hf.1, if_pos (Nat.lt_of_not_le hwindow)]
      rfl
    obtain ⟨hinside, hapart⟩ := h
    rw [← hsame] at hinside hapart
    exact ⟨hinside, hapart⟩

/-- Along a run of CRYPTO frames at one level, no more than the window is buffered if no frame
overlaps a fragment that stays buffered. -/
theorem crypto_held_le (level : EncryptionLevel) (env : Env)
    (clientDcid clientScid serverScid : Bytes) (tp : TransportParameters) (frames : List CryptoFrame)
    (h : Machine.AllSteps (step level) (Apart level)
      ⟨.create env clientDcid clientScid serverScid tp, []⟩ frames) :
    (Machine.run (step level) ⟨.create env clientDcid clientScid serverScid tp, []⟩ frames).held level
      ≤ kMaxCryptoWindow := by
  have hinit : Bounded level ⟨.create env clientDcid clientScid serverScid tp, []⟩ := by
    cases level <;> exact ⟨nofun, nofun⟩
  exact (Machine.run_invariant (fun _ _ h hf => h.step hf) hinit h).held_le

/-- Adjacent fragments, the second one sent again. -/
theorem crypto_held_le_adjacent :
    (Machine.run (step .initial) plain [⟨4, [5, 6]⟩, ⟨2, [3, 4]⟩, ⟨4, [5]⟩]).held .initial ≤
      kMaxCryptoWindow :=
  crypto_held_le .initial Env.plain [] [] [] {} _ (by decide +kernel)

/-- Fragments that overlap fill the buffer beyond the window. -/
theorem crypto_held_past_window : kMaxCryptoWindow < (Machine.run (step .initial) plain
    ((List.range 70).map fun i => ⟨i + 1, List.replicate 1000 0⟩)).held .initial := by
  decide +kernel

end CryptoSession

end Spaznet.Quic
