import Spaznet.Quic.Verify.Routing

/-!
# Stateless answers

A listener answers a datagram by itself with Version Negotiation or with Retry. If another listener
answered such an answer again, two of them could keep each other busy. A Retry is never answered; a
Version Negotiation always is.
-/

namespace Spaznet.Quic

open List Option

theorem peekLong_spec (h : peekLong dg = some (version, dcid, scid)) :
    (∃ first rest, dg = first :: rest ∧ first &&& 0x80 ≠ 0) ∧
      version = beNat ((dg.drop 1).take 4) ∧
      dcid.length ≤ kMaxConnectionIdLen ∧ scid.length ≤ kMaxConnectionIdLen := by
  unfold peekLong at h
  split at h
  · cases h
  simp only [bind_eq_bind, bind_eq_some_iff] at h
  obtain ⟨first, hfirst, h⟩ := h
  split at h
  · cases h
  next hlong =>
  simp only [bind_eq_some_iff] at h
  obtain ⟨dlen, -, h⟩ := h
  split at h
  · cases h
  next hdlen =>
  simp only [bind_eq_some_iff] at h
  obtain ⟨slen, -, h⟩ := h
  split at h
  · cases h
  next hslen =>
  cases h
  refine ⟨?_, rfl, ?_, ?_⟩
  · cases dg with
    | nil => cases hfirst
    | cons b rest =>
      cases hfirst
      exact ⟨_, rest, rfl, hlong⟩
  all_goals
    rw [length_take]
    omega

theorem peekLong_versionNegotiation (versions : Bytes) (hd : dcid.length ≤ kMaxConnectionIdLen)
    (hs : scid.length ≤ kMaxConnectionIdLen) :
    peekLong (buildVersionNegotiationPacket dcid scid versions) = some (0, dcid, scid) := by
  have hdlen : (UInt8.ofNat dcid.length).toNat = dcid.length :=
    UInt8.toNat_ofNat_of_lt' (lt_of_le_of_lt hd (by decide))
  have hslen : (UInt8.ofNat scid.length).toNat = scid.length :=
    UInt8.toNat_ofNat_of_lt' (lt_of_le_of_lt hs (by decide))
  have hids : Remaining (buildVersionNegotiationPacket dcid scid versions) 5
      (UInt8.ofNat dcid.length :: (dcid ++ (UInt8.ofNat scid.length :: (scid ++ versions)))) :=
    ⟨[0xC0, 0, 0, 0, 0], by simp [buildVersionNegotiationPacket, prefixed], rfl⟩
  have hscid : Remaining (buildVersionNegotiationPacket dcid scid versions) (6 + dcid.length) _ :=
    hids.next.advance
  have hrest := hscid.next
  rw [Nat.add_right_comm] at hrest
  have hlen := hids.length_eq
  simp only [length_cons, length_append] at hlen
  have hfirst : (buildVersionNegotiationPacket dcid scid versions)[0]? = some 0xC0 := rfl
  have hversion : beNat (((buildVersionNegotiationPacket dcid scid versions).drop 1).take 4) = 0 := rfl
  unfold peekLong
  rw [if_neg (by omega), hfirst, hids.getElem?_eq, hversion]
  simp only [bind_eq_bind, bind_some, hdlen, hids.next.take_eq, hscid.getElem?_eq, hslen,
    hrest.take_eq]
  rw [if_neg (by decide), if_neg (by omega), if_neg (by omega)]

namespace Listener

variable {env : ListenerEnv} {l : Listener} {peer : PeerAddr}

/-- A packet of another version is answered, whatever the listener's state. -/
theorem answer_of_version_ne (h : peekLong dg = some (version, dcid, scid))
    (hv : version ≠ kQuicV1) : (l.onDatagram env peer dg).answer =
      some (buildVersionNegotiationPacket dcid scid [0, 0, 0, 1]) := by
  obtain ⟨⟨first, rest, rfl, hlong⟩, -⟩ := peekLong_spec h
  have hjudge : l.judge env peer (first :: rest) = .negotiateVersion dcid scid := by
    unfold judge
    dsimp only
    rw [if_pos hlong, h]
    exact if_pos hv
  unfold onDatagram
  rw [hjudge]

theorem answer_cases (h : (l.onDatagram env peer dg).answer = some R) :
    (∃ version dcid scid, peekLong dg = some (version, dcid, scid) ∧ version ≠ kQuicV1 ∧
        R = buildVersionNegotiationPacket dcid scid [0, 0, 0, 1]) ∨
      ∃ dcid scid, l.FirstInitial dg dcid scid ∧ buildRetryPacket env.toCrypto scid l.newRandomCid.1
        (l.newRandomCid.2.makeRetryToken env dcid peer).1 dcid = some R := by
  have hfits := fits_judge env l peer dg
  unfold onDatagram at h
  split at h
  case h_2 dcid scid hjudge =>
    rw [hjudge] at hfits
    obtain ⟨version, hpeek, hne⟩ := hfits
    cases h
    exact .inl ⟨version, dcid, scid, hpeek, hne, rfl⟩
  case h_3 dcid scid hjudge =>
    rw [hjudge] at hfits
    simp only [sendRetry] at h
    split at h
    · cases h
    · exact .inr ⟨dcid, scid, hfits.1, h⟩
  all_goals cases h

theorem answer_of_version_eq
    (hv : ∀ version dcid scid, peekLong dg = some (version, dcid, scid) → version = kQuicV1)
    (h : (l.onDatagram env peer dg).answer = some R) :
    ∃ rest, R = 0xff :: 0 :: 0 :: 0 :: 1 :: rest := by
  obtain ⟨version, dcid, scid, hpeek, hne, -⟩ | ⟨dcid, scid, -, hbuild⟩ := answer_cases h
  · exact absurd (hv version dcid scid hpeek) hne
  simp only [buildRetryPacket, map_eq_some_iff] at hbuild
  obtain ⟨tag, -, rfl⟩ := hbuild
  exact ⟨_, rfl⟩

/-- A Retry packet belongs to a connection or is dropped. -/
theorem answer_retry (rest : Bytes) :
    (l.onDatagram env peer (0xff :: 0 :: 0 :: 0 :: 1 :: rest)).answer = none := by
  by_contra hsome
  obtain ⟨R, hR⟩ := ne_none_iff_exists'.1 hsome
  obtain ⟨version, dcid, scid, hpeek, hne, -⟩ | ⟨dcid, scid, hinitial, -⟩ := answer_cases hR
  · exact hne (peekLong_spec hpeek).2.1
  obtain ⟨first, tail, hdg, htype⟩ := hinitial.initial
  cases hdg
  exact absurd htype (by decide)

/-- What a listener answers by itself is answered by no listener exactly if the datagram was not of
another version. -/
theorem no_reflection_iff (env : ListenerEnv) (l : Listener) (peer : PeerAddr) (dg : Bytes) :
    (∀ R, (l.onDatagram env peer dg).answer = some R →
        ∀ (env' : ListenerEnv) (l' : Listener) (peer' : PeerAddr),
          (l'.onDatagram env' peer' R).answer = none) ↔
      ∀ version dcid scid, peekLong dg = some (version, dcid, scid) → version = kQuicV1 := by
  constructor
  · intro h version dcid scid hpeek
    by_contra hv
    obtain ⟨-, -, hd, hs⟩ := peekLong_spec hpeek
    have hanswer := h _ (answer_of_version_ne hpeek hv) env l peer
    rw [answer_of_version_ne (peekLong_versionNegotiation _ hd hs) (by decide)] at hanswer
    cases hanswer
  · intro hv R hR env' l' peer'
    obtain ⟨rest, rfl⟩ := answer_of_version_eq hv hR
    exact answer_retry rest

/-- A datagram of an unknown version makes one listener send a packet that any listener answers with
the very same packet. -/
theorem negotiation_bounces :
    let R : Bytes := [0xC0, 0, 0, 0, 0, 0, 0, 0, 0, 0, 1]
    ((create {} 1).onDatagram .plain (.other []) [0xC0, 0xff, 0xff, 0xff, 0xff, 0, 0]).answer =
        some R ∧
      ((create {} 2).onDatagram .plain (.other []) R).answer = some R := by
  decide +kernel

end Listener

end Spaznet.Quic
