import Spaznet.Quic.Listener

/-!
# The listener's tables

Short headers carry an id of the configured length, so a connection can be reached by them only if
its key has that length; long headers also find it by an alias. Here is what a step of the listener
does to the two tables, and which new connections leave every other one in its place.
-/

namespace Spaznet.Quic

open AList

theorem length_randomBytes (n : Nat) (s : UInt64) : (randomBytes n s).1.length = n := by
  induction n generalizing s with
  | zero => rfl
  | succ n ih => exact congrArg (· + 1) (ih (xorshift s))

theorem Listener.ConnState.reaches_receive (s : ConnState) (dg : Bytes) :
    s.conn.Reaches s.env (s.receive dg).conn := by
  have hdg : s.conn.Reaches s.env _ := (s.conn.reachesBy_onDatagram dg).reaches
  unfold receive
  dsimp only
  split
  · exact hdg
  · exact hdg.trans (Run.reachesBy_onTimer _).reaches

namespace Listener

variable {env : ListenerEnv} {l l' : Listener}

/-- Short headers can reach every connection, and every alias leads to one. -/
structure Routable (l : Listener) : Prop where
  length : ∀ key ∈ l.connections, key.length = l.serverCidLength
  target : ∀ {dcid key}, l.aliases.lookup dcid = some key → key ∈ l.connections

/-- A connection is the one it was, further on. -/
def Continues (s s' : ConnState) : Prop := s'.env = s.env ∧ s.conn.Reaches s.env s'.conn

/-- No connection is replaced or destroyed, and the ids that led to it still do. -/
structure Keeps (l l' : Listener) : Prop where
  continues : ∀ {key s}, l.connections.lookup key = some s →
    ∃ s', l'.connections.lookup key = some s' ∧ Continues s s'
  routes : ∀ {dcid key}, l.route dcid = some key → l'.route dcid = some key

/-! ## Steps that accept no connection -/

/-- The tables are as they were; each connection is the one it was, further on. -/
structure Pumped (l l' : Listener) : Prop where
  serverCidLength : l'.serverCidLength = l.serverCidLength
  aliases : l'.aliases = l.aliases
  mem : ∀ {key}, key ∈ l'.connections ↔ key ∈ l.connections
  continues : ∀ {key s}, l.connections.lookup key = some s →
    ∃ s', l'.connections.lookup key = some s' ∧ Continues s s'

theorem Continues.refl (s : ConnState) : Continues s s := ⟨rfl, .refl _⟩

theorem Continues.trans (h : Continues s₁ s₂) (h' : Continues s₂ s₃) : Continues s₁ s₃ := by
  obtain ⟨henv, hreach⟩ := h
  obtain ⟨henv', hreach'⟩ := h'
  rw [henv] at henv' hreach'
  exact ⟨henv', hreach.trans hreach'⟩

namespace Pumped

theorem of_tables (hn : l'.serverCidLength = l.serverCidLength) (ha : l'.aliases = l.aliases)
    (hc : l'.connections = l.connections) : Pumped l l' where
  serverCidLength := hn
  aliases := ha
  mem := by rw [hc]
  continues {key s} hs := ⟨s, by rw [hc]; exact hs, .refl s⟩

theorem refl (l : Listener) : Pumped l l := of_tables rfl rfl rfl

theorem trans (h : Pumped l₁ l₂) (h' : Pumped l₂ l₃) : Pumped l₁ l₃ where
  serverCidLength := h'.serverCidLength.trans h.serverCidLength
  aliases := h'.aliases.trans h.aliases
  mem := h'.mem.trans h.mem
  continues hs := by
    obtain ⟨s', hs', hcont⟩ := h.continues hs
    obtain ⟨s'', hs'', hcont'⟩ := h'.continues hs'
    exact ⟨s'', hs'', hcont.trans hcont'⟩

theorem insert (h : l.connections.lookup key = some s) (hcont : Continues s s') :
    Pumped l { l with connections := l.connections.insert key s' } where
  serverCidLength := rfl
  aliases := rfl
  mem {other} := by
    have hmem : key ∈ l.connections := lookup_isSome.mp (by rw [h]; rfl)
    rw [mem_insert]
    exact or_iff_right_of_imp (· ▸ hmem)
  continues {other t} ht := by
    by_cases heq : other = key
    · subst heq
      rw [h] at ht
      cases ht
      exact ⟨s', lookup_insert _, hcont⟩
    · exact ⟨t, by rw [lookup_insert_ne heq]; exact ht, .refl t⟩

theorem keeps (h : Pumped l l') : Keeps l l' where
  continues := h.continues
  routes {dcid key} hroute := by
    rw [← hroute]
    unfold route
    simp only [h.aliases, h.mem]

theorem routable (h : Pumped l l') (hl : l.Routable) : l'.Routable where
  length key hkey := by
    rw [h.serverCidLength]
    exact hl.length key (h.mem.mp hkey)
  target {dcid key} halias := by
    rw [h.aliases] at halias
    exact h.mem.mpr (hl.target halias)

end Pumped

section
variable (l : Listener)

theorem pumped_newRandomCid : Pumped l l.newRandomCid.2 := .of_tables rfl rfl rfl

theorem pumped_makeRetryToken (odcid : Bytes) (peer : PeerAddr) :
    Pumped l (l.makeRetryToken env odcid peer).2 := by
  unfold makeRetryToken
  dsimp only
  split
  all_goals exact .of_tables rfl rfl rfl

theorem pumped_sendRetry (peer : PeerAddr) (dcid scid : Bytes) :
    Pumped l (l.sendRetry env peer dcid scid).listener := by
  have h : Pumped l (l.newRandomCid.2.makeRetryToken env dcid peer).2 :=
    l.pumped_newRandomCid.trans (pumped_makeRetryToken _ dcid peer)
  unfold sendRetry
  dsimp only
  split
  · exact h
  · exact h

theorem pumped_deliver (peer : PeerAddr) (dg key : Bytes) : Pumped l (l.deliver peer dg key) := by
  unfold deliver
  split
  · exact .refl l
  next s hs => exact .insert hs ⟨rfl, ConnState.reaches_receive _ dg⟩

end

theorem pumped_pump (keys : List Bytes) (l : Listener) : Pumped l (pump keys l) := by
  induction keys generalizing l with
  | nil => exact .refl l
  | cons key keys ih =>
    unfold pump
    split
    · exact ih l
    next s hs =>
      have hcont : Continues s { s with conn := s.conn.onTimer s.env } :=
        ⟨rfl, (Run.reachesBy_onTimer _).reaches⟩
      have hput : Pumped l _ := .insert hs hcont
      dsimp only
      split
      · exact hput
      · exact hput.trans (ih _)

theorem pumped_call (l : Listener) (scid : Bytes) (e : Event) : Pumped l (l.call scid e) := by
  unfold call
  split
  · exact .refl l
  next s hs => exact .insert hs ⟨rfl, Run.reaches_handle _ e⟩

/-! ## New connections -/

/-- The id of a new connection can be used: under Retry the id that came back has the configured
length, and otherwise the generator's next id is no alias, unless it is a key and nothing is stored
under it. -/
def IdFree (l : Listener) (dcid : Bytes) (odcid : Option Bytes) : Prop :=
  if odcid.isSome then dcid.length = l.serverCidLength
  else l.newRandomCid.1 ∈ l.connections ∨ l.newRandomCid.1 ∉ l.aliases

/-- Every connection that the input makes the listener accept gets an id that can be used. -/
def AcceptsFree (env : ListenerEnv) (l : Listener) : ListenerInput → Prop
  | .datagram peer dg => ∀ dcid scid odcid, l.judge env peer dg = .accept dcid scid odcid →
    env.connectionThrows (l.tpFor dcid odcid) = false → l.IdFree dcid odcid
  | .timer => True
  | .call _ _ => True

/-- After the step all connections can be reached, and those from before are still there. -/
structure Sound (l l' : Listener) : Prop where
  routable : l'.Routable
  keeps : Keeps l l'

theorem Pumped.sound (h : Pumped l l') (hl : l.Routable) : Sound l l' := ⟨h.routable hl, h.keeps⟩

/-- In sound tables an id that leads nowhere is in neither. -/
theorem Routable.unused (hl : l.Routable) (h : l.route dcid = none) :
    dcid ∉ l.connections ∧ dcid ∉ l.aliases := by
  unfold route at h
  split at h
  · cases h
  next hconn =>
    refine ⟨hconn, fun halias => ?_⟩
    obtain ⟨key, hkey⟩ := Option.isSome_iff_exists.mp (lookup_isSome.mpr halias)
    rw [hkey, Option.filter_some, if_pos (decide_eq_true (hl.target hkey))] at h
    cases h

def withConnection (l : Listener) (dcid scid : Bytes) (s : ConnState) (prngState : UInt64) :
    Listener :=
  { l with
    prngState
    aliases := l.aliases.insert dcid scid
    connections := l.connections.insert scid s }

theorem route_of_alias (hconn : dcid ∉ l.connections) (halias : l.aliases.lookup dcid = some key)
    (hkey : key ∈ l.connections) : l.route dcid = some key := by
  unfold route
  rw [if_neg hconn, halias, Option.filter_some, if_pos (decide_eq_true hkey)]

theorem route_withConnection (h : l.route dest = some key) (hdcid : dest ≠ dcid)
    (hscid : dest ≠ scid) (s : ConnState) (prngState : UInt64) :
    (l.withConnection dcid scid s prngState).route dest = some key := by
  have hkey : key ∈ (l.withConnection dcid scid s prngState).connections :=
    (mem_insert _).mpr (.inr (mem_of_route h))
  unfold route at h
  split at h
  next hmem =>
    cases h
    exact if_pos hkey
  next hmem =>
    refine route_of_alias ?_ ?_ hkey
    · intro hmem'
      exact ((mem_insert _).mp hmem').elim hscid hmem
    · exact (lookup_insert_ne hdcid).trans (Option.filter_eq_some_iff.mp h).1

/-- A new connection is sound exactly if its key has the configured length and is no alias. -/
theorem sound_withConnection_iff (hl : l.Routable) (hdcid : l.route dcid = none)
    (hscid : scid ∉ l.connections) (s : ConnState) (prngState : UInt64) :
    Sound l (l.withConnection dcid scid s prngState) ↔
      scid.length = l.serverCidLength ∧ scid ∉ l.aliases := by
  have hnew : scid ∈ (l.withConnection dcid scid s prngState).connections :=
    (mem_insert _).mpr (.inl rfl)
  constructor
  · intro hsound
    refine ⟨hsound.routable.length scid hnew, fun halias => ?_⟩
    -- the alias leads to another connection before, and to the new one after
    obtain ⟨key, hkey⟩ := Option.isSome_iff_exists.mp (lookup_isSome.mpr halias)
    have hroute := hsound.keeps.routes (route_of_alias hscid hkey (hl.target hkey))
    rw [route, if_pos hnew] at hroute
    cases hroute
    exact hscid (hl.target hkey)
  · rintro ⟨hlen, halias⟩
    refine ⟨⟨?_, ?_⟩, ⟨?_, ?_⟩⟩
    · intro key hkey
      obtain rfl | hkey := (mem_insert _).mp hkey
      · exact hlen
      · exact hl.length key hkey
    · intro dest key hlookup
      apply (mem_insert _).mpr
      by_cases hdest : dest = dcid
      · subst hdest
        exact .inl (Option.some.inj ((lookup_insert _).symm.trans hlookup)).symm
      · exact .inr (hl.target ((lookup_insert_ne hdest).symm.trans hlookup))
    · intro key t ht
      have hne : key ≠ scid := by
        rintro rfl
        exact hscid (lookup_isSome.mp (by rw [ht]; rfl))
      exact ⟨t, (lookup_insert_ne hne).trans ht, .refl t⟩
    · intro dest key hroute
      refine route_withConnection hroute ?_ ?_ s prngState
      · rintro rfl
        rw [hdcid] at hroute
        cases hroute
      · rintro rfl
        unfold route at hroute
        rw [if_neg hscid, lookup_eq_none.mpr halias, Option.filter_none] at hroute
        cases hroute

/-- If the key is taken, only the alias is new. -/
theorem sound_withAlias (hl : l.Routable) (hdcid : l.route dcid = none) (hkey : key ∈ l.connections)
    (prngState : UInt64) :
    Sound l { l with prngState, aliases := l.aliases.insert dcid key } := by
  have hold {dest} (h : dest ≠ dcid) : (l.aliases.insert dcid key).lookup dest =
      l.aliases.lookup dest := lookup_insert_ne h
  refine ⟨⟨hl.length, fun {dest target} hlookup => ?_⟩, ⟨fun hs => ⟨_, hs, .refl _⟩, ?_⟩⟩
  · by_cases hdest : dest = dcid
    · subst hdest
      obtain rfl := Option.some.inj ((lookup_insert _).symm.trans hlookup)
      exact hkey
    · exact hl.target ((hold hdest).symm.trans hlookup)
  · intro dest target hroute
    have hdest : dest ≠ dcid := by
      rintro rfl
      rw [hdcid] at hroute
      cases hroute
    rw [← hroute, route, route]
    dsimp only
    rw [hold hdest]

theorem idFree_iff (hl : l.Routable) (hdcid : l.route dcid = none) (odcid : Option Bytes) :
    l.IdFree dcid odcid ↔
      (l.serverScidFor dcid odcid).1 ∈ l.connections ∨
      (l.serverScidFor dcid odcid).1.length = l.serverCidLength ∧
      (l.serverScidFor dcid odcid).1 ∉ l.aliases := by
  obtain ⟨hconn, halias⟩ := hl.unused hdcid
  unfold IdFree serverScidFor
  split
  · exact ⟨fun hlen => .inr ⟨hlen, halias⟩, fun h => (h.resolve_left hconn).1⟩
  · have hlen : l.newRandomCid.1.length = l.serverCidLength := length_randomBytes _ _
    rw [and_iff_right hlen]

theorem acceptInitial_eq (env : ListenerEnv) (l : Listener) (peer : PeerAddr) (dg dcid scid : Bytes)
    (odcid : Option Bytes) :
    let serverScid := (l.serverScidFor dcid odcid).1
    ∃ s prngState, l.acceptInitial env peer dg dcid scid odcid =
      if env.connectionThrows (l.tpFor dcid odcid) then { l with prngState }
      else if serverScid ∈ l.connections then
        { l with prngState, aliases := l.aliases.insert dcid serverScid }
      else l.withConnection dcid serverScid s prngState := by
  unfold acceptInitial serverScidFor
  split
  · exact ⟨_, l.prngState, rfl⟩
  · exact ⟨_, l.newRandomCid.2.prngState, rfl⟩

theorem sound_acceptInitial_iff (hl : l.Routable) (hdcid : l.route dcid = none) (peer : PeerAddr)
    (dg scid : Bytes) (odcid : Option Bytes) :
    Sound l (l.acceptInitial env peer dg dcid scid odcid) ↔
      (env.connectionThrows (l.tpFor dcid odcid) = false → l.IdFree dcid odcid) := by
  obtain ⟨s, prngState, heq⟩ := acceptInitial_eq env l peer dg dcid scid odcid
  rw [heq, idFree_iff hl hdcid]
  split
  next hthrows =>
    have hsame : Pumped l { l with prngState } := .of_tables rfl rfl rfl
    exact iff_of_true (hsame.sound hl) fun h => absurd (hthrows.symm.trans h) (by decide)
  next hthrows =>
    rw [imp_iff_right (Bool.not_eq_true _ ▸ hthrows)]
    split
    next hmem => exact iff_of_true (sound_withAlias hl hdcid hmem prngState) (.inl hmem)
    next hmem => rw [sound_withConnection_iff hl hdcid hmem, or_iff_right hmem]

theorem pumped_onDatagram (peer : PeerAddr) (dg : Bytes)
    (h : ∀ dcid scid odcid, l.judge env peer dg ≠ .accept dcid scid odcid) :
    Pumped l (l.onDatagram env peer dg).listener := by
  unfold onDatagram
  split
  · exact .refl l
  · exact .refl l
  · exact l.pumped_sendRetry peer _ _
  · exact l.pumped_deliver peer dg _
  next dcid scid odcid hjudge => exact absurd hjudge (h dcid scid odcid)

theorem sound_onDatagram_iff (hl : l.Routable) (peer : PeerAddr) (dg : Bytes) :
    Sound l (l.onDatagram env peer dg).listener ↔ AcceptsFree env l (.datagram peer dg) := by
  by_cases haccept : ∃ dcid scid odcid, l.judge env peer dg = .accept dcid scid odcid
  · obtain ⟨dcid, scid, odcid, hjudge⟩ := haccept
    have hfits := fits_judge env l peer dg
    rw [hjudge] at hfits
    have honly : AcceptsFree env l (.datagram peer dg) ↔
        (env.connectionThrows (l.tpFor dcid odcid) = false → l.IdFree dcid odcid) := by
      refine ⟨fun h => h dcid scid odcid hjudge, fun h dcid' scid' odcid' hjudge' => ?_⟩
      rw [hjudge] at hjudge'
      cases hjudge'
      exact h
    unfold onDatagram
    rw [hjudge, honly]
    exact sound_acceptInitial_iff hl hfits.1.unrouted peer dg scid odcid
  · push Not at haccept
    have hpumped : Pumped l _ := pumped_onDatagram peer dg haccept
    refine iff_of_true (hpumped.sound hl) fun dcid scid odcid hjudge => ?_
    exact absurd hjudge (haccept dcid scid odcid)

theorem sound_step_iff (hl : l.Routable) (input : ListenerInput) :
    Sound l (l.step env input) ↔ AcceptsFree env l input := by
  cases input with
  | datagram peer dg => exact sound_onDatagram_iff hl peer dg
  | timer => exact iff_of_true ((pumped_pump _ l).sound hl) trivial
  | call scid e => exact iff_of_true ((l.pumped_call scid e).sound hl) trivial

/-- In every run, whatever the datagrams and their senders, each step is sound exactly if each new
connection gets an id that can be used. -/
theorem sound_run_iff (env : ListenerEnv) (cfg : ListenerConfig) (seed : UInt64)
    (inputs : List ListenerInput) :
    Machine.AllSteps (step env) (fun l input => Sound l (l.step env input)) (create cfg seed)
        inputs ↔
      Machine.AllSteps (step env) (AcceptsFree env) (create cfg seed) inputs := by
  refine Machine.allSteps_congr (I := Routable) (fun l input hl _ => sound_step_iff hl input)
    (fun l input _ _ hsound _ => hsound.routable)
    ⟨fun _ h => absurd h (notMem_empty _), fun h => nomatch (h : none = some _)⟩
    (Machine.allSteps_of_forall (fun _ _ => trivial) _ inputs)

/-- A first Initial, which is answered with a token, and one that brings the token back under an id
of one byte. -/
def shortIdRun : List ListenerInput :=
  let peer := .inet (fun _ => 1) 4433
  let odcid := [1, 2, 3, 4, 5, 6, 7, 8]
  let l := (create { requireRetry := true } 1).newRandomCid.2
  let token := (l.makeRetryToken .plain odcid peer).1
  [.datagram peer ([0xc0, 0, 0, 0, 1] ++ prefixed odcid ++ [0, 0, 20] ++ List.replicate 20 0),
    .datagram peer ([0xc0, 0, 0, 0, 1, 1, 7, 0] ++ prefixed token ++ [20] ++ List.replicate 20 0)]

/-- Under Retry the client picks the key and its length. -/
theorem not_sound_shortIdRun :
    ¬ Machine.AllSteps (step .plain) (fun l input => Sound l (l.step .plain input))
      (create { requireRetry := true } 1) shortIdRun := by
  rintro ⟨-, hsound, -⟩
  have hlen := hsound.routable.length [7] (by decide +kernel)
  exact absurd hlen (by decide +kernel)

end Listener

end Spaznet.Quic
