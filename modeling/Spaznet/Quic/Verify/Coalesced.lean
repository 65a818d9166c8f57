import Spaznet.Quic.Verify.Bounds
import Spaznet.Quic.Verify.Unopened

/-!
# Coalesced packets

A datagram is a sequence of packets. The loop of `on_datagram` is compared with a receiver to which
the packets arrive one by one, each in the state the ones before it left. The two differ where a
packet is met whose level has no receive keys: `process_long_packet` then returns 0, and the rest of
the datagram is dropped together with the passes after the loop.
-/

namespace Spaznet.Quic

open Connection Option

def Action.applies : Action → Bool
  | .frameError | .frame _ _ | .received _ _ => true
  | _ => false

/-! ## Packets -/

def hasLongHeader (p : Bytes) : Bool := p.headD 0 &&& 0x80 != 0

/-- A long-header packet of version 1, which the parser reads to its end. -/
def IsLongV1 (p : Bytes) (hdr : LongHeader) : Prop :=
  parseLongHeader p 0 = some (hdr, p.length) ∧ hdr.version = kQuicV1

def IsShort (p : Bytes) : Prop := p ≠ [] ∧ hasLongHeader p = false

/-- A sequence of packets that can share a datagram. Packets with a short header and Retry packets
have no length field, so they come last. -/
inductive Coalesced : List Bytes → Prop where
  | nil : Coalesced []
  | short : IsShort p → Coalesced [p]
  | retry : IsLongV1 p hdr → hdr.type = .retry → Coalesced [p]
  | long : IsLongV1 p hdr → hdr.type ≠ .retry → Coalesced ps → Coalesced (p :: ps)

theorem IsLongV1.first (h : IsLongV1 p hdr) :
    ∃ first, p[0]? = some first ∧ first &&& 0x80 ≠ 0 ∧ hdr.type = .ofFirst first :=
  parseLongHeader_first h.1

theorem IsLongV1.hasLongHeader (h : IsLongV1 p hdr) : hasLongHeader p = true := by
  obtain ⟨first, hfirst, hlong, -⟩ := h.first
  cases p with
  | nil => cases hfirst
  | cons b p =>
    obtain rfl : b = first := Option.some.inj hfirst
    exact bne_iff_ne.2 hlong

theorem IsShort.first (h : IsShort p) : ∃ first, p[0]? = some first ∧ ¬ first &&& 0x80 ≠ 0 := by
  obtain ⟨hne, hshort⟩ := h
  cases p with
  | nil => exact (hne rfl).elim
  | cons b p => exact ⟨b, rfl, by simpa [Quic.hasLongHeader] using hshort⟩

theorem Coalesced.wellFormed (h : Coalesced ps) :
    ∀ p ∈ ps, IsShort p ∨ ∃ hdr, IsLongV1 p hdr := by
  induction h with
  | nil => simp
  | short hp => simpa using .inl hp
  | retry hp => simpa using .inr ⟨_, hp⟩
  | long hp _ _ ih => exact List.forall_mem_cons.2 ⟨.inr ⟨_, hp⟩, ih⟩

theorem Coalesced.length_le (h : Coalesced ps) : ps.length ≤ ps.flatten.length := by
  have hpos (p : Bytes) (hp : IsShort p ∨ ∃ hdr, IsLongV1 p hdr) : 1 ≤ p.length := by
    rcases hp with hp | ⟨hdr, hp⟩
    · exact List.length_pos_iff.2 hp.1
    · obtain ⟨first, hfirst, -⟩ := hp.first
      exact (List.getElem?_eq_some_iff.1 hfirst).1
  have hall := h.wellFormed
  clear h
  induction ps with
  | nil => exact le_rfl
  | cons p ps ih =>
    rw [List.forall_mem_cons] at hall
    have hp := hpos p hall.1
    have hps := ih hall.2
    rw [List.flatten_cons, List.length_append, List.length_cons]
    omega

namespace LongResult

/-- The same result with the next packet `n` bytes further on. -/
def shift (n : Nat) : LongResult → LongResult
  | .abandon => .abandon
  | .skip cursor => .skip (n + cursor)
  | .opened level pn payload cursor => .opened level pn payload (n + cursor)
  | .fault => .fault

end LongResult

namespace Connection

theorem openLongBody_shift (n : Nat) :
    (openLongBody env sp level pkt pnOffset pnLen pn length (n + cursor)).1 =
      (openLongBody env sp level pkt pnOffset pnLen pn length cursor).1.shift n := by
  unfold openLongBody
  dsimp only
  split
  · rfl
  split
  · rfl
  · split <;> rfl

theorem openCarved_shift (n : Nat) :
    (openCarved env sp level pkt pnOffset length (n + cursor)).1 =
      (openCarved env sp level pkt pnOffset length cursor).1.shift n := by
  unfold openCarved
  dsimp only
  split
  · rfl
  split
  · rfl
  · exact openLongBody_shift n

section
variable (c : Connection) (env : Env)

theorem result_openLongPacket (h : parseLongHeader datagram off = some (hdr, cursor)) :
    (c.openLongPacket env datagram off).result = match hdr.type.level with
      | none => .abandon
      | some level =>
        if !(c.spaces level).recvKeysReady then .abandon
        else (openCarved env (c.spaces level) level ((datagram.drop off).take (cursor - off))
          (Word64.sub hdr.pnOffset off) hdr.length cursor).1 := by
  simp only [openLongPacket, h]
  cases hdr.type.level with
  | none => rfl
  | some level =>
    dsimp only
    split <;> rfl

/-- A packet with a length field is opened as if it were alone. -/
theorem openLongPacket_inside (front rest : Bytes)
    (hfront : front.length ≤ 2 ^ 64) (h : IsLongV1 p hdr) (hr : hdr.type ≠ .retry) :
    (c.openLongPacket env (front ++ (p ++ rest)) front.length).result =
      (c.openLongPacket env p 0).result.shift front.length := by
  obtain ⟨hparse, hv⟩ := h
  have hinside := parseLongHeader_inside front rest hparse (by rw [hv]; decide) hr
  have hpkt := take_drop_inside front p rest 0 p.length (by omega)
  have hpn := Word64.sub_add_left hdr.pnOffset hfront
  rw [c.result_openLongPacket env hparse, c.result_openLongPacket env hinside]
  cases hdr.type.level with
  | none => rfl
  | some level =>
    dsimp only
    split
    · rfl
    · rw [hpn, Nat.add_sub_cancel_left, ← Nat.add_zero front.length, hpkt]
      exact openCarved_shift _

theorem openLongPacket_retry (front rest : Bytes) (h : IsLongV1 p hdr) (hr : hdr.type = .retry) :
    (c.openLongPacket env (front ++ (p ++ rest)) front.length).result = .abandon := by
  obtain ⟨first, hfirst, -, htype⟩ := h.first
  have hget := getElem?_inside front p rest (List.getElem?_eq_some_iff.1 hfirst).1
  rw [hfirst] at hget
  cases hparse : parseLongHeader (front ++ (p ++ rest)) front.length with
  | none => simp only [openLongPacket, hparse]
  | some x =>
    obtain ⟨first', hfirst', -, htype'⟩ := parseLongHeader_first hparse
    obtain rfl : first = first' := Option.some.inj (hget.symm.trans hfirst')
    rw [c.result_openLongPacket env hparse, htype', ← htype, hr]
    rfl

end

def ended (c : Connection) : Prop := c.state = .closed ∨ c.state = .draining
  deriving Decidable

/-- A packet that stops the packet loop: a Retry, or one whose level has no receive keys. -/
def lacksKeys (c : Connection) (p : Bytes) : Bool :=
  match parseLongHeader p 0 with
  | none => true
  | some (hdr, _) => match hdr.type.level with
    | none => true
    | some level => !(c.spaces level).recvKeysReady

def opens (c : Connection) (env : Env) (p : Bytes) : Bool :=
  if hasLongHeader p then
    match (c.openLongPacket env p 0).result with
    | .opened _ _ _ _ => true
    | _ => false
  else (c.openShortPacket env p).isSome

theorem result_cases (c : Connection) (env : Env) (h : IsLongV1 p hdr) (hlt : p.length < 2 ^ 63) :
    (c.lacksKeys p = true ∧ c.opens env p = false ∧
        (c.openLongPacket env p 0).result = .abandon) ∨
      (c.lacksKeys p = false ∧ c.opens env p = false ∧
        (c.openLongPacket env p 0).result = .skip p.length) ∨
      (c.lacksKeys p = false ∧ c.opens env p = true ∧
        ∃ level pn payload, (c.openLongPacket env p 0).result =
          .opened level pn payload p.length) := by
  have hbounds : Action.InBounds env c (.longPacket p 0) := by
    refine (inBounds_iff env c hlt 0).2 fun hun => ?_
    have := hun.2
    rw [h.1] at this
    simp [h.2, kQuicV1] at this
  have hresult := c.result_openLongPacket env h.1
  have hnext := next_openLongPacket hbounds
  simp only [opens, if_pos h.hasLongHeader, lacksKeys, h.1]
  simp only [nextOffset, h.1, bind_eq_bind] at hnext
  cases hlevel : hdr.type.level with
  | none =>
    rw [hlevel] at hresult
    left
    exact ⟨rfl, by rw [hresult], hresult⟩
  | some level =>
    simp only [hlevel, bind_some, recvReady] at hresult hnext ⊢
    cases hready : (c.spaces level).recvKeysReady with
    | false =>
      simp only [hready] at hresult
      left
      exact ⟨rfl, by rw [hresult]; rfl, hresult⟩
    | true =>
      right
      simp only [hready, if_true] at hnext
      generalize (c.openLongPacket env p 0).result = result at hnext ⊢
      cases result with
      | abandon | fault => cases hnext
      | skip cursor =>
        obtain rfl : cursor = p.length := Option.some.inj hnext
        exact .inl ⟨rfl, rfl, rfl⟩
      | opened level pn payload cursor =>
        obtain rfl : cursor = p.length := Option.some.inj hnext
        exact .inr ⟨rfl, rfl, level, pn, payload, rfl⟩

end Connection

namespace Run

def applied (r : Run) : List Action := (r.trace.map Prod.snd).filter Action.applies

def arriveAlone (env : Env) (r : Run) (p : Bytes) : Run :=
  if r.conn.ended then r else (walkPackets env p p.length 0 r).2

def Agrees (r r' : Run) : Prop := r.conn = r'.conn ∧ r.applied = r'.applied

theorem applied_perform (env : Env) (r : Run) (a : Action) :
    (r.perform env a).applied = if a.applies then a :: r.applied else r.applied := by
  simp only [applied, perform, List.map_cons, List.filter_cons]

theorem applied_le_of_reaches (h : Reaches env r r') :
    r.applied.length ≤ r'.applied.length := by
  obtain ⟨as, rfl⟩ := h
  induction as generalizing r with
  | nil => exact le_rfl
  | cons a as ih =>
    refine le_trans ?_ (ih (r := r.perform env a))
    rw [applied_perform]
    split
    · exact Nat.le_succ _
    · exact le_rfl

/-- What every action keeps of two runs, the frames of a packet keep. -/
theorem deliverFrames_congr {R : Run → Run → Prop}
    (hperform : ∀ r r' a, R r r' → R (r.perform env a) (r'.perform env a)) (h : R r r')
    (level : EncryptionLevel) (payload : Bytes) :
    R (r.deliverFrames env level payload) (r'.deliverFrames env level payload) := by
  unfold deliverFrames
  cases parseFrames payload with
  | none => exact hperform r r' _ h
  | some frames => exact List.foldl_rel h fun a _ r r' h => hperform r r' a h

namespace Agrees

theorem refl (r : Run) : Agrees r r := ⟨rfl, rfl⟩

theorem trans (h : Agrees r₁ r₂) (h' : Agrees r₂ r₃) : Agrees r₁ r₃ :=
  ⟨h.1.trans h'.1, h.2.trans h'.2⟩

section
variable (h : Agrees r r')
include h

theorem perform (env : Env) (a : Action) : Agrees (r.perform env a) (r'.perform env a) := by
  refine ⟨congrArg (·.perform env a) h.1, ?_⟩
  rw [applied_perform, applied_perform, h.2]

theorem deliverFrames (env : Env) (level : EncryptionLevel) (payload : Bytes) :
    Agrees (r.deliverFrames env level payload) (r'.deliverFrames env level payload) :=
  deliverFrames_congr (fun _ _ a h => h.perform env a) h level payload

/-- Actions that open a packet may read it from different buffers. -/
theorem opening (ha : a.applies = false) (ha' : a'.applies = false)
    (hact : r.conn.act env a = r.conn.act env a') :
    Agrees (r.perform env a) (r'.perform env a') := by
  constructor
  · show r.conn.perform env a = r'.conn.perform env a'
    rw [← h.1, Connection.perform, Connection.perform, hact]
  · rw [applied_perform, applied_perform, ha, ha']
    exact h.2

theorem processShortPacket (env : Env) (p : Bytes) :
    Agrees (r.processShortPacket env p) (r'.processShortPacket env p) := by
  have hopen := h.perform env (.shortPacket p)
  unfold Run.processShortPacket
  rw [h.1]
  dsimp only
  split
  · exact hopen
  · exact (hopen.deliverFrames env _ _).perform env _

/-- A packet inside a datagram has the effect it has alone. -/
theorem processLongPacket (env : Env) (front rest : Bytes)
    (hfront : front.length ≤ 2 ^ 64) (hp : IsLongV1 p hdr) (hr : hdr.type ≠ .retry) :
    (r.processLongPacket env (front ++ (p ++ rest)) front.length).1 =
        (r'.processLongPacket env p 0).1.map (front.length + ·) ∧
      Agrees (r.processLongPacket env (front ++ (p ++ rest)) front.length).2
        (r'.processLongPacket env p 0).2 := by
  have hresult := r.conn.openLongPacket_inside env front rest hfront hp hr
  have hopen : Agrees (r.perform env (.longPacket (front ++ (p ++ rest)) front.length))
      (r'.perform env (.longPacket p 0)) := by
    refine h.opening rfl rfl ?_
    simp only [Connection.act, hresult]
    cases (r.conn.openLongPacket env p 0).result <;> rfl
  simp only [Run.processLongPacket, hresult, ← h.1]
  cases (r.conn.openLongPacket env p 0).result with
  | abandon | fault | skip => exact ⟨rfl, hopen⟩
  | opened level pn payload cursor =>
    exact ⟨rfl, (hopen.deliverFrames env level payload).perform env _⟩

end

end Agrees

/-! ## One packet -/

/-- The contents of an opened packet are applied: at least its reception is noted. -/
theorem applied_lt_delivered (h : Reaches env r r') (level : EncryptionLevel) (payload : Bytes)
    (pn : Nat) : r.applied.length <
      ((r'.deliverFrames env level payload).perform env (.received level pn)).applied.length := by
  have hle := applied_le_of_reaches (h.trans (r'.reachesBy_deliverFrames level payload).reaches)
  exact Nat.lt_succ_of_le hle

theorem processLongPacket_cases (env : Env) (r : Run) (h : IsLongV1 p hdr)
    (hlt : p.length < 2 ^ 63) :
    (r.conn.lacksKeys p = true ∧ r.conn.opens env p = false ∧
        (r.processLongPacket env p 0).1 = none ∧ Agrees (r.processLongPacket env p 0).2 r) ∨
      (r.conn.lacksKeys p = false ∧ (r.processLongPacket env p 0).1 = some p.length ∧
        (r.conn.opens env p = false ∧ Agrees (r.processLongPacket env p 0).2 r ∨
          r.conn.opens env p = true ∧
            r.applied.length < (r.processLongPacket env p 0).2.applied.length)) := by
  have hskip (hact : r.conn.act env (.longPacket p 0) = r.conn) :
      Agrees (r.perform env (.longPacket p 0)) r := by
    refine ⟨?_, applied_perform env r _⟩
    show r.conn.perform env _ = r.conn
    rw [Connection.perform, hact, ite_self]
  rcases r.conn.result_cases env h hlt with ⟨hkeys, hopens, hres⟩ | ⟨hkeys, hopens, hres⟩ |
    ⟨hkeys, hopens, level, pn, payload, hres⟩
  · simp only [processLongPacket, hres]
    exact .inl ⟨hkeys, hopens, trivial, hskip (by simp only [Connection.act, hres])⟩
  · simp only [processLongPacket, hres]
    exact .inr ⟨hkeys, trivial, .inl ⟨hopens, hskip (by simp only [Connection.act, hres])⟩⟩
  · simp only [processLongPacket, hres]
    exact .inr ⟨hkeys, trivial, .inr ⟨hopens, applied_lt_delivered (reaches_perform r _) level payload
      pn⟩⟩

theorem processShortPacket_cases (env : Env) (r : Run) (h : IsShort p) :
    r.conn.opens env p = false ∧ Agrees (r.processShortPacket env p) r ∨
      r.conn.opens env p = true ∧
        r.applied.length < (r.processShortPacket env p).applied.length := by
  simp only [Connection.opens, h.2]
  cases hp : r.conn.openShortPacket env p with
  | none =>
    refine .inl ⟨rfl, processShortPacket_unopened hp, ?_⟩
    simp only [processShortPacket, hp]
    exact applied_perform env r _
  | some packet =>
    simp only [processShortPacket, hp]
    exact .inr ⟨rfl, applied_lt_delivered (reaches_perform r _) _ _ _⟩

/-! ## A packet alone -/

theorem walkPackets_end (env : Env) (r : Run) (fuel : Nat) (h : datagram.length ≤ off) :
    walkPackets env datagram fuel off r = (true, r) := by
  cases fuel with
  | zero => rfl
  | succ fuel =>
    unfold walkPackets
    rw [List.getElem?_eq_none h]

theorem walkPackets_short (env : Env) (r : Run) (fuel : Nat) (front : Bytes) (h : IsShort p) :
    walkPackets env (front ++ p) (fuel + 1) front.length r =
      (false, r.processShortPacket env p) := by
  obtain ⟨first, hfirst, hshort⟩ := h.first
  have hget : (front ++ p)[front.length]? = some first := by
    rw [List.getElem?_append_right le_rfl, Nat.sub_self, hfirst]
  unfold walkPackets
  simp only [hget, if_neg hshort, List.drop_left]

theorem walkPackets_long (env : Env) (r : Run) (fuel : Nat) (front rest : Bytes)
    (h : IsLongV1 p hdr) :
    let x := r.processLongPacket env (front ++ (p ++ rest)) front.length
    walkPackets env (front ++ (p ++ rest)) (fuel + 1) front.length r = x.1.elim (false, x.2)
      fun cursor => walkPackets env (front ++ (p ++ rest)) fuel cursor x.2 := by
  obtain ⟨first, hfirst, hlong, -⟩ := h.first
  have hpos := (List.getElem?_eq_some_iff.1 hfirst).1
  have hget := getElem?_inside front p rest hpos
  rw [Nat.add_zero, hfirst] at hget
  conv => zeta; lhs; unfold walkPackets
  rw [hget]
  refine (if_pos hlong).trans ?_
  obtain ⟨_ | cursor, r'⟩ := r.processLongPacket env (front ++ (p ++ rest)) front.length
  · rfl
  · rfl

theorem walkPackets_alone (env : Env) (r : Run) (h : IsLongV1 p hdr) (hlt : p.length < 2 ^ 63) :
    (walkPackets env p p.length 0 r).2 = (r.processLongPacket env p 0).2 := by
  obtain ⟨first, hfirst, -⟩ := h.first
  have hpos := (List.getElem?_eq_some_iff.1 hfirst).1
  obtain ⟨fuel, hfuel⟩ := Nat.exists_eq_succ_of_ne_zero (Nat.ne_of_gt hpos)
  have hwalk := walkPackets_long env r fuel [] [] h
  simp only [List.nil_append, List.append_nil, List.length_nil] at hwalk
  rw [hfuel, hwalk]
  rcases processLongPacket_cases env r h hlt with ⟨-, -, hnext, -⟩ | ⟨-, hnext, -⟩
  · rw [hnext]
    rfl
  · rw [hnext]
    exact congrArg Prod.snd (walkPackets_end env _ fuel le_rfl)

theorem arriveAlone_of_ended {r : Run} (h : r.conn.ended) (p : Bytes) :
    r.arriveAlone env p = r := if_pos h

theorem arriveAlone_long {r : Run} (hlive : ¬ r.conn.ended) (h : IsLongV1 p hdr)
    (hlt : p.length < 2 ^ 63) : r.arriveAlone env p = (r.processLongPacket env p 0).2 := by
  rw [arriveAlone, if_neg hlive, walkPackets_alone env r h hlt]

theorem arriveAlone_short {r : Run} (hlive : ¬ r.conn.ended) (h : IsShort p) :
    r.arriveAlone env p = r.processShortPacket env p := by
  obtain ⟨fuel, hfuel⟩ := Nat.exists_eq_succ_of_ne_zero
    (Nat.ne_of_gt (List.length_pos_iff.2 h.1))
  have hwalk := walkPackets_short env r fuel [] h
  simp only [List.nil_append, List.length_nil] at hwalk
  rw [arriveAlone, if_neg hlive, hfuel, hwalk]

/-- Alone, a packet is applied exactly if it opens. -/
theorem arriveAlone_cases (env : Env) {r : Run} (hlive : ¬ r.conn.ended)
    (h : IsShort p ∨ ∃ hdr, IsLongV1 p hdr) (hlt : p.length < 2 ^ 63) :
    r.conn.opens env p = false ∧ Agrees (r.arriveAlone env p) r ∨
      r.conn.opens env p = true ∧
        r.applied.length < (r.arriveAlone env p).applied.length := by
  rcases h with hshort | ⟨hdr, hlong⟩
  · rw [arriveAlone_short hlive hshort]
    exact processShortPacket_cases env r hshort
  rw [arriveAlone_long hlive hlong hlt]
  rcases processLongPacket_cases env r hlong hlt with ⟨-, hopens, -, hsame⟩ | ⟨-, -, hcases⟩
  · exact .inl ⟨hopens, hsame⟩
  · exact hcases

theorem reaches_arriveAlone (env : Env) (r : Run) (p : Bytes) :
    Reaches env r (r.arriveAlone env p) := by
  unfold arriveAlone
  split
  · exact .refl r
  · exact reaches_walkPackets p p.length 0 r

theorem reaches_foldl_arriveAlone (env : Env) (ps : List Bytes) (r : Run) :
    Reaches env r (ps.foldl (arriveAlone env) r) := by
  induction ps generalizing r with
  | nil => exact .refl r
  | cons p ps ih => exact (reaches_arriveAlone env r p).trans (ih _)

theorem foldl_arriveAlone_of_ended (h : r.conn.ended) (ps : List Bytes) :
    ps.foldl (arriveAlone env) r = r := List.foldl_fixed' (arriveAlone_of_ended h) ps

/-- Packets that arrive one by one are all without effect exactly if none of them opens. -/
theorem applied_foldl_eq_iff (env : Env) {ps : List Bytes} (hs : Agrees r r')
    (hps : ∀ p ∈ ps, IsShort p ∨ ∃ hdr, IsLongV1 p hdr) (hlt : ∀ p ∈ ps, p.length < 2 ^ 63) :
    (ps.foldl (arriveAlone env) r).applied = r'.applied ↔
      r'.conn.ended ∨ ∀ p ∈ ps, r'.conn.opens env p = false := by
  by_cases hended : r.conn.ended
  · rw [foldl_arriveAlone_of_ended hended]
    exact iff_of_true hs.2 (.inl (hs.1 ▸ hended))
  induction ps generalizing r with
  | nil => exact iff_of_true hs.2 (.inr (by simp))
  | cons p ps ih =>
    rw [List.forall_mem_cons] at hps hlt
    rw [List.foldl_cons, List.forall_mem_cons, or_iff_right (hs.1 ▸ hended)]
    rcases arriveAlone_cases env hended hps.1 hlt.1 with ⟨hopens, hsame⟩ | ⟨hopens, hgrow⟩
    · rw [ih (hsame.trans hs) hps.2 hlt.2 (hsame.1 ▸ hended), or_iff_right (hs.1 ▸ hended),
        ← hs.1, hopens]
      simp
    · refine iff_of_false (fun heq => ?_) fun h => by simp [← hs.1, hopens] at h
      have hle := applied_le_of_reaches
        (reaches_foldl_arriveAlone env ps (r.arriveAlone env p))
      rw [heq, ← hs.2] at hle
      omega

/-! ## A datagram -/

/-- The contents of the packets are applied as if they had arrived one by one, and the passes follow
a datagram of long-header packets. -/
def Independent (env : Env) (r : Run) (ps : List Bytes) : Prop :=
  (r.onDatagram env ps.flatten).applied =
      (ps.foldl (arriveAlone env) (r.perform env (.noteDatagram ps.flatten.length))).applied ∧
    (¬ r.conn.ended → (∀ p ∈ ps, hasLongHeader p = true) →
      (walkPackets env ps.flatten ps.flatten.length 0
        (r.perform env (.noteDatagram ps.flatten.length))).1 = true)

instance (env : Env) (r : Run) (ps : List Bytes) : Decidable (Independent env r ps) :=
  inferInstanceAs (Decidable (_ ∧ _))

/-- No packet opens behind one that ended the connection, and the loop stops early only before a
short-header packet and where nothing is left to apply. -/
def Unbroken (env : Env) : Connection → List Bytes → Prop
  | _, [] => True
  | c, p :: ps =>
    (c.ended → c.opens env p = false) ∧
    (hasLongHeader p = true → c.lacksKeys p = true →
      (∃ q ∈ ps, hasLongHeader q = false) ∧ (c.ended ∨ ∀ q ∈ ps, c.opens env q = false)) ∧
    (hasLongHeader p = true → c.lacksKeys p = false →
      Unbroken env (processLongPacket env ⟨c, []⟩ p 0).2.conn ps)

instance Unbroken.decidable (env : Env) : (c : Connection) → (ps : List Bytes) →
    Decidable (Unbroken env c ps)
  | _, [] => isTrue trivial
  | c, p :: ps =>
    have := Unbroken.decidable env (processLongPacket env ⟨c, []⟩ p 0).2.conn ps
    inferInstanceAs (Decidable (_ ∧ _ ∧ _))

section
variable (env : Env)

theorem unbroken_short (h : IsShort p) :
    Unbroken env c [p] ↔ (c.ended → c.opens env p = false) := by
  simp [Unbroken, h.2]

theorem unbroken_stop (h : IsLongV1 p hdr) (hkeys : c.lacksKeys p = true)
    (hopens : c.opens env p = false) (ps : List Bytes) :
    Unbroken env c (p :: ps) ↔
      (∃ q ∈ ps, hasLongHeader q = false) ∧ (c.ended ∨ ∀ q ∈ ps, c.opens env q = false) := by
  simp [Unbroken, h.hasLongHeader, hkeys, hopens]

theorem unbroken_next (h : IsLongV1 p hdr) (hkeys : c.lacksKeys p = false) (ps : List Bytes) :
    Unbroken env c (p :: ps) ↔ (c.ended → c.opens env p = false) ∧
      Unbroken env (processLongPacket env ⟨c, []⟩ p 0).2.conn ps := by
  simp [Unbroken, h.hasLongHeader, hkeys]

/-- A packet changes the state in the same way whatever the past. -/
theorem conn_processLongPacket (r : Run) (datagram : Bytes) (off : Nat) :
    (processLongPacket env ⟨r.conn, []⟩ datagram off).2.conn =
      (r.processLongPacket env datagram off).2.conn := by
  unfold processLongPacket
  cases (r.conn.openLongPacket env datagram off).result with
  | abandon | fault | skip => rfl
  | opened level pn payload cursor =>
    refine congrArg (Connection.perform env · (.received level pn)) ?_
    exact deliverFrames_congr (R := fun r r' => r.conn = r'.conn)
      (fun _ _ a h => congrArg (Connection.perform env · a) h) (by rfl) level payload

theorem walkPackets_iff (hps : Coalesced ps) (front : Bytes) {r r' : Run}
    (hs : Agrees r r') (hfuel : ps.length ≤ fuel) (hlt : (front ++ ps.flatten).length < 2 ^ 63) :
    ((walkPackets env (front ++ ps.flatten) fuel front.length r).2.applied =
          (ps.foldl (arriveAlone env) r').applied ∧
        ((∀ p ∈ ps, hasLongHeader p = true) →
          (walkPackets env (front ++ ps.flatten) fuel front.length r).1 = true)) ↔
      Unbroken env r'.conn ps := by
  induction hps generalizing front fuel r r' with
  | nil =>
    rw [List.flatten_nil, List.append_nil, walkPackets_end env r fuel le_rfl]
    exact iff_of_true ⟨hs.2, fun _ => rfl⟩ trivial
  | @short p hp =>
    obtain ⟨fuel, rfl⟩ := Nat.exists_eq_succ_of_ne_zero (Nat.ne_of_gt hfuel)
    have hvac : ¬ ∀ q ∈ [p], hasLongHeader q = true := by simp [hp.2]
    rw [List.flatten_singleton, walkPackets_short env r fuel front hp,
      and_iff_left fun h => (hvac h).elim, List.foldl_cons, List.foldl_nil, unbroken_short env hp]
    by_cases hended : r'.conn.ended
    · rw [arriveAlone_of_ended hended, ← hs.1, ← hs.2]
      rcases processShortPacket_cases env r hp with ⟨hopens, hsame⟩ | ⟨hopens, hgrow⟩
      · exact iff_of_true hsame.2 fun _ => hopens
      refine iff_of_false (fun heq => ?_) fun h => ?_
      · rw [heq] at hgrow
        exact absurd hgrow (lt_irrefl _)
      · rw [h (hs.1 ▸ hended)] at hopens
        cases hopens
    · rw [arriveAlone_short hended hp]
      exact iff_of_true (hs.processShortPacket env p).2 fun h => (hended h).elim
  | @retry p hdr hp hr =>
    obtain ⟨fuel, rfl⟩ := Nat.exists_eq_succ_of_ne_zero (Nat.ne_of_gt hfuel)
    -- a Retry at the end stops the loop, so the passes are missed
    have hresult := r.conn.openLongPacket_retry env front [] hp hr
    have hwalk := walkPackets_long env r fuel front [] hp
    simp only [processLongPacket, hresult] at hwalk
    have hkeys : r'.conn.lacksKeys p = true := by
      simp only [Connection.lacksKeys, hp.1, hr, LongType.level]
    rw [List.flatten_cons, List.flatten_nil, hwalk]
    simp [Unbroken, hp.hasLongHeader, hkeys]
  | @long p hdr ps hp hr hps ih =>
    obtain ⟨fuel, rfl⟩ := Nat.exists_eq_succ_of_ne_zero (Nat.ne_of_gt (Nat.lt_of_lt_of_le
      (Nat.succ_pos _) hfuel))
    rw [List.flatten_cons] at hlt ⊢
    simp only [List.length_append] at hlt
    obtain ⟨hnext, hsame⟩ := hs.processLongPacket env front ps.flatten (by omega) hp hr
    rw [walkPackets_long env r fuel front _ hp, List.foldl_cons, List.forall_mem_cons]
    rcases processLongPacket_cases env r' hp (by omega) with ⟨hkeys, hopens, hnone, halone⟩ |
      ⟨hkeys, hsome, hcases⟩
    · -- the loop stops here; nothing may be left to apply
      have harrive : Agrees (r'.arriveAlone env p) r' := by
        by_cases hended : r'.conn.ended
        · rw [arriveAlone_of_ended hended]
          exact .refl r'
        · rwa [arriveAlone_long hended hp (by omega)]
      have hrest (q : Bytes) (hq : q ∈ ps) : q.length < 2 ^ 63 := by
        have := (List.sublist_flatten_of_mem hq).length_le
        omega
      rw [hnone] at hnext
      rw [unbroken_stop env hp hkeys hopens, hnext]
      dsimp only [map_none, Option.elim]
      rw [(hsame.trans halone).2, eq_comm, applied_foldl_eq_iff env harrive hps.wellFormed hrest,
        and_comm]
      simp [hp.hasLongHeader]
    · rw [hsome] at hnext
      rw [unbroken_next env hp hkeys, conn_processLongPacket, hnext]
      generalize (r.processLongPacket env (front ++ (p ++ ps.flatten)) front.length).2 = r₁ at hsame
      dsimp only [map_some, Option.elim]
      have hlt' : (front ++ p ++ ps.flatten).length < 2 ^ 63 := by
        simp only [List.length_append]
        omega
      simp only [hp.hasLongHeader, true_and, ← List.append_assoc, ← List.length_append]
      by_cases hended : r'.conn.ended
      · rw [arriveAlone_of_ended hended]
        rcases hcases with ⟨hopens, halone⟩ | ⟨hopens, hgrow⟩
        · rw [ih _ (hsame.trans halone) (Nat.le_of_succ_le_succ hfuel) hlt', halone.1]
          exact (and_iff_right fun _ => hopens).symm
        refine iff_of_false (fun h => ?_) fun h => ?_
        · have hwalk : Reaches env r₁ _ :=
            reaches_walkPackets (front ++ p ++ ps.flatten) fuel (front ++ p).length r₁
          have hle := applied_le_of_reaches hwalk
          rw [h.1, foldl_arriveAlone_of_ended hended] at hle
          have := hsame.2
          rw [this] at hle
          omega
        · rw [h.1 hended] at hopens
          cases hopens
      · rw [arriveAlone_long hended hp (by omega), ih _ hsame (Nat.le_of_succ_le_succ hfuel) hlt']
        exact (and_iff_right fun h => (hended h).elim).symm

end

theorem applied_performAll_passes {r : Run} (h : ∀ a ∈ as, a.isPass = true) :
    (r.performAll env as).applied = r.applied := by
  induction as generalizing r with
  | nil => rfl
  | cons a as ih =>
    refine (ih fun b hb => h b (List.mem_cons_of_mem _ hb)).trans ?_
    have ha := h a (List.mem_cons_self)
    rw [applied_perform, if_neg]
    cases a <;> first | exact Bool.false_ne_true | cases ha

theorem applied_onDatagram {r : Run} (hlive : ¬ r.conn.ended) (datagram : Bytes) :
    (r.onDatagram env datagram).applied = (walkPackets env datagram datagram.length 0
      (r.perform env (.noteDatagram datagram.length))).2.applied := by
  unfold onDatagram
  rw [if_neg (show ¬ (_ ∨ _) from hlive)]
  split
  next heq => rw [heq]
  next r' heq =>
    rw [heq]
    obtain ⟨as, has, hflush⟩ : ReachesBy env IsSend _ _ := reachesBy_flush (fun _ => 64)
      (r'.performAll env [.installKeys, .advanceTls, .installKeys, .pullCrypto])
    rw [hflush, applied_performAll_passes fun a ha => ?_,
      applied_performAll_passes (by simp [Action.isPass])]
    rcases has a ha with ⟨level, rfl⟩ | rfl <;> rfl

/-- **Coalesced packets.** The packets of a datagram are processed as if they had arrived one by
one, with the passes after them, exactly if the datagram is ignored or the loop is unbroken. -/
theorem independent_iff (env : Env) (r : Run) (hps : Coalesced ps)
    (hlt : ps.flatten.length < 2 ^ 63) :
    Independent env r ps ↔ r.conn.ended ∨
      Unbroken env (r.perform env (.noteDatagram ps.flatten.length)).conn ps := by
  have hwalk := walkPackets_iff env hps []
    (Agrees.refl (r.perform env (.noteDatagram ps.flatten.length))) hps.length_le hlt
  by_cases hended : r.conn.ended
  · refine iff_of_true ⟨?_, fun hlive => (hlive hended).elim⟩ (.inl hended)
    have hnote : (r.perform env (.noteDatagram ps.flatten.length)).conn.ended := by
      show (r.conn.perform env _).ended
      unfold Connection.perform
      split <;> exact hended
    rw [foldl_arriveAlone_of_ended hnote, applied_perform]
    exact congrArg applied (if_pos hended)
  · rw [or_iff_right hended, ← hwalk, Independent, applied_onDatagram hended]
    exact and_congr_right' (imp_iff_right hended)

/-- An Initial packet with a PING under the given packet number. -/
def pingInitial (pn : UInt8) : Bytes :=
  [0xc0, 0, 0, 0, 1, 0, 0, 0, 20, pn, 1, 0, 0] ++ List.replicate 16 0

def pingInitialHeader : LongHeader where
  type := .initial
  version := kQuicV1
  dcid := []
  scid := []
  length := 20
  pnOffset := 9
  packetLen := 29

/-- Two Initial packets in one datagram are both applied. -/
theorem independent_pingInitials :
    Independent Env.plain ⟨.create Env.plain [] [] [] {}, []⟩ [pingInitial 0, pingInitial 1] := by
  have h0 : IsLongV1 (pingInitial 0) pingInitialHeader := ⟨by decide, rfl⟩
  have h1 : IsLongV1 (pingInitial 1) pingInitialHeader := ⟨by decide, rfl⟩
  exact (independent_iff Env.plain _ (.long h0 (by decide) (.long h1 (by decide) .nil))
    (by decide)).2 (.inr (by decide +kernel))

/-- A 0-RTT packet, whose keys are never installed, drops the Initial packet behind it. -/
theorem not_independent_zeroRtt :
    ¬ Independent Env.plain ⟨.create Env.plain [] [] [] {}, []⟩
      [[0xd0, 0, 0, 0, 1, 0, 0, 20] ++ List.replicate 20 0, pingInitial 0] := by
  decide +kernel

end Run

end Spaznet.Quic
