import Mathlib.Data.List.AList
import Spaznet.Quic.Connection.Plain

/-!
# The listener

One listener serves a socket. It owns the connections under the ids the server chose, keeps aliases
from the ids that clients chose first, answers unknown versions and, where Retry is required, first
Initials without a state of its own, and hands every other datagram to the connection it belongs to.

`connections_` and `connections_aliases_` are association lists; only the timer visits the
connections in the order of `std::map`.
-/

namespace Spaznet.Quic

/-! ## Stateless packets -/

/-- A peer's address. `other` is one of another family, or too short for its own. -/
inductive PeerAddr where
  | inet (ip : Fin 4 → UInt8) (port : UInt16)
  | inet6 (ip : Fin 16 → UInt8) (port : UInt16)
  | other (storage : Bytes)

def portBytes (port : UInt16) : Bytes := [port.toUInt8, (port >>> 8).toUInt8]

def encodePeerAddr : PeerAddr → Option Bytes
  | .inet ip port => some (List.ofFn ip ++ portBytes port)
  | .inet6 ip port => some (List.ofFn ip ++ portBytes port)
  | .other _ => none

def prefixed (cid : Bytes) : Bytes := UInt8.ofNat cid.length :: cid

def kRetryIntegrityKeyV1 : Bytes :=
  [0xbe, 0x0c, 0x69, 0x0b, 0x9f, 0x66, 0x57, 0x5a, 0x1d, 0x76, 0x6b, 0x54, 0xe3, 0x68, 0xc8, 0x4e]

def kRetryIntegrityNonceV1 : Bytes :=
  [0x46, 0x15, 0x99, 0xd3, 0x5d, 0x63, 0x2b, 0xf2, 0x23, 0x98, 0x25, 0xbb]

def computeRetryIntegrityTag (y : Crypto) (originalDcid retryPacketWithoutTag : Bytes) :
    Option Bytes := do
  let pseudo := prefixed originalDcid ++ retryPacketWithoutTag
  let (ct, tag) ← y.aeadSeal .aes128Gcm kRetryIntegrityKeyV1 kRetryIntegrityNonceV1 pseudo []
  if (ct ++ tag).length ≠ 16 then none else some (ct ++ tag)

/-- `none` where the code throws. -/
def buildRetryPacket (y : Crypto) (clientScid serverScid token odcid : Bytes) : Option Bytes :=
  let first := (0x80 : UInt8) ||| (0x40 : UInt8) ||| ((3 : UInt8) <<< 4) ||| (0x0f : UInt8)
  let pkt := [first, 0, 0, 0, UInt8.ofNat kQuicV1] ++ prefixed clientScid ++ prefixed serverScid ++
    token
  (computeRetryIntegrityTag y odcid pkt).map (pkt ++ ·)

def buildVersionNegotiationPacket (clientDcidEcho clientScidEcho supportedVersionsBe : Bytes) :
    Bytes :=
  [0xC0, 0, 0, 0, 0] ++ prefixed clientDcidEcho ++ prefixed clientScidEcho ++ supportedVersionsBe

/-- Version and connection ids of a long header, for dispatch. -/
def peekLong (dg : Bytes) : Option (Nat × Bytes × Bytes) :=
  if dg.length < 7 then none
  else do
    let first ← dg[0]?
    if first &&& 0x80 = 0 then none
    else
      let version := beNat ((dg.drop 1).take 4)
      let dlen := (← dg[5]?).toNat
      if 6 + dlen + 1 > dg.length ∨ dlen > kMaxConnectionIdLen then none
      else
        let slen := (← dg[6 + dlen]?).toNat
        if 7 + dlen + slen > dg.length ∨ slen > kMaxConnectionIdLen then none
        else some (version, (dg.drop 6).take dlen, (dg.drop (7 + dlen)).take slen)

/-! ## State -/

def xorshift (s : UInt64) : UInt64 :=
  let s := s ^^^ (s <<< 13)
  let s := s ^^^ (s >>> 7)
  s ^^^ (s <<< 17)

/-- The low bytes of the next `n` states of the generator, and the last state. -/
def randomBytes : Nat → UInt64 → Bytes × UInt64
  | 0, s => ([], s)
  | n + 1, s =>
    let s := xorshift s
    let (bytes, last) := randomBytes n s
    (s.toUInt8 :: bytes, last)

/-- What the listener relies on: packet protection, the hash behind the token's MAC, the constructor
of a connection, which may throw, and the environment of each connection. -/
structure ListenerEnv extends Crypto where
  hkdfExtract : Hash → (salt ikm : Bytes) → Bytes
  connectionThrows : TransportParameters → Bool
  /-- TLS engine and clock of the connection that is created as the n-th. -/
  connEnv : Nat → Env

/-- No protection; every token has the same MAC. -/
def ListenerEnv.plain : ListenerEnv where
  toCrypto := Env.plain.toCrypto
  hkdfExtract _ _ _ := List.replicate 32 0
  connectionThrows _ := false
  connEnv _ := .plain

structure Listener.ConnState where
  env : Env
  conn : Run
  lastPeer : PeerAddr

structure ListenerConfig where
  serverTp : TransportParameters := {}
  serverCidLength : Nat := 8
  requireRetry : Bool := false

structure Listener where
  serverTp : TransportParameters
  serverCidLength : Nat
  requireRetry : Bool
  connections : AList fun _ : Bytes => Listener.ConnState := ∅
  aliases : AList fun _ : Bytes => Bytes := ∅
  tokenKey : Bytes
  prngState : UInt64

/-- The last thing that happened to the connection between two states is a send that threw. -/
def Run.threw (env : Env) (before after : Run) : Bool :=
  before.trace.length < after.trace.length &&
    match after.trace.head? with
    | some (c, .send level) => (c.buildAndSend env level).outcome == .threw
    | _ => false

/-- `on_datagram` and then, unless it throws, `on_timer`. -/
def Listener.ConnState.receive (s : ConnState) (dg : Bytes) : ConnState :=
  let r := s.conn.onDatagram s.env dg
  { s with conn := if s.conn.threw s.env r then r else r.onTimer s.env }

def finalizeTp (tp : TransportParameters) (odCid scid : Bytes) : TransportParameters :=
  { tp with
    originalDestinationConnectionId := some (tp.originalDestinationConnectionId.getD odCid)
    initialSourceConnectionId := some (tp.initialSourceConnectionId.getD scid) }

namespace Listener

/-- The constructor; `seed` is the configured seed or what the random device gave. -/
def create (cfg : ListenerConfig) (seed : UInt64) : Listener where
  serverTp := cfg.serverTp
  serverCidLength :=
    if cfg.serverCidLength = 0 ∨ cfg.serverCidLength > kMaxConnectionIdLen then 8
    else cfg.serverCidLength
  requireRetry := cfg.requireRetry
  tokenKey := (randomBytes 32 seed).1
  prngState := seed

def newRandomCid (l : Listener) : Bytes × Listener :=
  let (cid, prngState) := randomBytes l.serverCidLength l.prngState
  (cid, { l with prngState })

/-- Nonce, address, original id and MAC; empty for an address that cannot be encoded. -/
def makeRetryToken (env : ListenerEnv) (l : Listener) (odcid : Bytes) (peer : PeerAddr) :
    Bytes × Listener :=
  let (nonce, prngState) := randomBytes 16 l.prngState
  let l := { l with prngState }
  match encodePeerAddr peer with
  | none => ([], l)
  | some addr =>
    let body := nonce ++ prefixed addr ++ prefixed odcid
    (body ++ (env.hkdfExtract .sha256 l.tokenKey body).take 16, l)

/-- The original id in a token that this listener made for the peer. -/
def validateRetryToken (env : ListenerEnv) (l : Listener) (token : Bytes) (peer : PeerAddr) :
    Option Bytes :=
  if token.length < 16 + 1 + 16 then none
  else do
    let addrLen := (← token[16]?).toNat
    if 17 + addrLen + 1 > token.length then none
    else
      let odcidLen := (← token[17 + addrLen]?).toNat
      let macOff := 18 + addrLen + odcidLen
      let mac := (env.hkdfExtract .sha256 l.tokenKey (token.take macOff)).take 16
      if odcidLen > kMaxConnectionIdLen ∨ macOff + 16 ≠ token.length ∨ mac ≠ token.drop macOff then
        none
      else if encodePeerAddr peer ≠ some ((token.drop 17).take addrLen) then none
      else some ((token.drop (18 + addrLen)).take odcidLen)

/-! ## Dispatch -/

/-- The key of the connection a long header's id leads to: directly, or by an alias. -/
def route (l : Listener) (dcid : Bytes) : Option Bytes :=
  if dcid ∈ l.connections then some dcid
  else (l.aliases.lookup dcid).filter (· ∈ l.connections)

inductive Verdict where
  | drop
  | negotiateVersion (dcid scid : Bytes)
  | retry (dcid scid : Bytes)
  | toConnection (key : Bytes)
  /-- A new connection; `odcid` is the original id out of a valid token. -/
  | accept (dcid scid : Bytes) (odcid : Option Bytes)

/-- An Initial that belongs to no connection. -/
def judgeInitial (env : ListenerEnv) (l : Listener) (peer : PeerAddr) (dg dcid scid : Bytes) :
    Verdict :=
  match parseLongHeader dg 0 with
  | none => .drop
  | some (full, _) =>
    if full.type ≠ .initial then .drop
    else if !l.requireRetry then .accept dcid scid none
    else if full.token = [] then .retry dcid scid
    else match l.validateRetryToken env full.token peer with
      | none => .drop
      | some odcid => .accept dcid scid (some odcid)

/-- The decisions of `on_datagram`. -/
def judge (env : ListenerEnv) (l : Listener) (peer : PeerAddr) (dg : Bytes) : Verdict :=
  match dg with
  | [] => .drop
  | first :: _ =>
    if first &&& 0x80 ≠ 0 then
      match peekLong dg with
      | none => .drop
      | some (version, dcid, scid) =>
        if version ≠ kQuicV1 then .negotiateVersion dcid scid
        else match l.route dcid with
          | some key => .toConnection key
          | none =>
            if (first >>> 4) &&& 0x03 ≠ 0 then .drop else l.judgeInitial env peer dg dcid scid
    else if dg.length < 1 + l.serverCidLength then .drop
    else if (dg.drop 1).take l.serverCidLength ∈ l.connections then
      .toConnection ((dg.drop 1).take l.serverCidLength)
    else .drop

/-- An Initial of this version under an id that leads to no connection. -/
structure FirstInitial (l : Listener) (dg dcid scid : Bytes) : Prop where
  peek : peekLong dg = some (kQuicV1, dcid, scid)
  initial : ∃ first rest, dg = first :: rest ∧ (first >>> 4) &&& 0x03 = 0
  unrouted : l.route dcid = none

def Verdict.Fits (l : Listener) (dg : Bytes) : Verdict → Prop
  | .drop => True
  | .negotiateVersion dcid scid =>
    ∃ version, peekLong dg = some (version, dcid, scid) ∧ version ≠ kQuicV1
  | .retry dcid scid => l.FirstInitial dg dcid scid ∧ l.requireRetry = true
  | .toConnection key => key ∈ l.connections
  | .accept dcid scid odcid => l.FirstInitial dg dcid scid ∧ odcid.isSome = l.requireRetry

theorem mem_of_route {l : Listener} (h : l.route dcid = some key) : key ∈ l.connections := by
  unfold route at h
  split at h
  next hmem => cases h; exact hmem
  · exact of_decide_eq_true (Option.filter_eq_some_iff.mp h).2

theorem fits_judgeInitial (env : ListenerEnv) {l : Listener} (peer : PeerAddr)
    (h : l.FirstInitial dg dcid scid) :
    (l.judgeInitial env peer dg dcid scid).Fits l dg := by
  unfold judgeInitial
  split
  · trivial
  split
  · trivial
  split
  next hretry => exact ⟨h, by simpa using hretry⟩
  next hretry =>
  have hretry : l.requireRetry = true := by simpa using hretry
  split
  · exact ⟨h, hretry⟩
  split
  · trivial
  · exact ⟨h, hretry.symm⟩

theorem fits_judge (env : ListenerEnv) (l : Listener) (peer : PeerAddr) (dg : Bytes) :
    (l.judge env peer dg).Fits l dg := by
  unfold judge
  split
  · trivial
  next first rest =>
  split
  · -- a long header
    split
    · trivial
    next version dcid scid hpeek =>
    split
    next hv => exact ⟨version, hpeek, hv⟩
    next hv =>
    obtain rfl : version = kQuicV1 := not_not.mp hv
    split
    next key hroute => exact mem_of_route hroute
    next hroute =>
    split
    · trivial
    next htype =>
    exact fits_judgeInitial env peer ⟨hpeek, ⟨first, rest, rfl, not_not.mp htype⟩, hroute⟩
  · -- a short header
    split
    · trivial
    split
    next hmem => exact hmem
    · trivial

/-- The listener after a datagram, and the packet it answers with by itself. -/
structure Reaction where
  listener : Listener
  answer : Option Bytes := none

def tpFor (l : Listener) (dcid : Bytes) (odcid : Option Bytes) : TransportParameters :=
  { l.serverTp with
    originalDestinationConnectionId := some (odcid.getD dcid)
    retrySourceConnectionId :=
      if odcid.isSome ∧ dcid ≠ [] then some dcid else l.serverTp.retrySourceConnectionId }

def sendRetry (env : ListenerEnv) (l : Listener) (peer : PeerAddr) (dcid scid : Bytes) :
    Reaction :=
  let (retryScid, l) := l.newRandomCid
  let (token, l) := l.makeRetryToken env dcid peer
  if token = [] then { listener := l }
  else { listener := l, answer := buildRetryPacket env.toCrypto scid retryScid token dcid }

/-- The server's id for a new connection: the Initial's own under Retry, otherwise a new one. -/
def serverScidFor (l : Listener) (dcid : Bytes) (odcid : Option Bytes) : Bytes × Listener :=
  if odcid.isSome then (dcid, l) else l.newRandomCid

/-- Create a connection. If its key is taken, `emplace` does nothing: the new connection takes the
datagram and is gone with the end of the call. -/
def acceptInitial (env : ListenerEnv) (l : Listener) (peer : PeerAddr) (dg dcid scid : Bytes)
    (odcid : Option Bytes) : Listener :=
  let tp := l.tpFor dcid odcid
  let (serverScid, l) := l.serverScidFor dcid odcid
  if env.connectionThrows tp then l
  else
    let e := env.connEnv l.connections.keys.length
    let conn : Run :=
      ⟨.create e dcid scid serverScid (finalizeTp tp dcid serverScid), []⟩
    let conn := if odcid.isSome then conn.perform e .markValidated else conn
    let l := { l with aliases := l.aliases.insert dcid serverScid }
    if serverScid ∈ l.connections then l
    else { l with
      connections := l.connections.insert serverScid
        (ConnState.receive { env := e, conn, lastPeer := peer } dg) }

/-- Hand a datagram to a connection. Its address follows the peer until the handshake is done. -/
def deliver (l : Listener) (peer : PeerAddr) (dg key : Bytes) : Listener :=
  match l.connections.lookup key with
  | none => l
  | some s =>
    let lastPeer := if s.conn.conn.state ≠ .handshaking then s.lastPeer else peer
    { l with connections := l.connections.insert key (ConnState.receive { s with lastPeer } dg) }

def onDatagram (env : ListenerEnv) (l : Listener) (peer : PeerAddr) (dg : Bytes) : Reaction :=
  match l.judge env peer dg with
  | .drop => { listener := l }
  | .negotiateVersion dcid scid =>
    { listener := l, answer := some (buildVersionNegotiationPacket dcid scid [0, 0, 0, 1]) }
  | .retry dcid scid => l.sendRetry env peer dcid scid
  | .toConnection key => { listener := l.deliver peer dg key }
  | .accept dcid scid odcid => { listener := l.acceptInitial env peer dg dcid scid odcid }

/-- The loop of `on_timer` over the keys; an exception ends it. -/
def pump : List Bytes → Listener → Listener
  | [], l => l
  | key :: keys, l =>
    match l.connections.lookup key with
    | none => pump keys l
    | some s =>
      let conn := s.conn.onTimer s.env
      let l := { l with connections := l.connections.insert key { s with conn } }
      if s.conn.threw s.env conn then l else pump keys l

def onTimer (l : Listener) : Listener := pump (l.connections.keys.mergeSort (· ≤ ·)) l

/-- A call of the application on the connection under an id. -/
def call (l : Listener) (scid : Bytes) (e : Event) : Listener :=
  match l.connections.lookup scid with
  | none => l
  | some s =>
    { l with connections := l.connections.insert scid { s with conn := s.conn.handle s.env e } }

end Listener

inductive ListenerInput where
  | datagram (peer : PeerAddr) (dg : Bytes)
  | timer
  | call (scid : Bytes) (e : Event)

def Listener.step (env : ListenerEnv) (l : Listener) : ListenerInput → Listener
  | .datagram peer dg => (l.onDatagram env peer dg).listener
  | .timer => l.onTimer
  | .call scid e => l.call scid e

end Spaznet.Quic
