import Spaznet.Quic.Connection.Run

/-!
# An environment without encryption

Keys are empty of meaning, masks are zero and sealing appends a zero tag, so that runs of the
connection on given datagrams can be evaluated. TLS hands out nothing and the clock stands still.
-/

namespace Spaznet.Quic

def Env.plain : Env where
  deriveInitialSecret _ _ := [1]
  derivePacketKeys _ _ := { key := [1], iv := List.replicate 12 0, hp := [1] }
  deriveNextApplicationSecret _ _ := [1]
  headerProtectionMask _ _ _ _ := 0
  cipherInit _ _ _ := true
  aeadSeal _ _ _ _ plaintext := some (plaintext, List.replicate 16 0)
  aeadOpen _ _ _ _ body _ := some body
  length_aeadSeal h := by
    obtain ⟨rfl, rfl⟩ := Prod.mk.inj (Option.some.inj h)
    exact ⟨rfl, rfl⟩
  length_aeadOpen h := by rw [Option.some.inj h]
  doHandshake t := t
  clock _ := 0

/-- The same with a TLS engine that completes at once: application secrets and the peer's
parameters are there after the first step. -/
def Env.plainEstablished (peer : TransportParameters) : Env :=
  { Env.plain with
    doHandshake := fun t => { t with
      state := .established
      readSecret := fun _ => [1]
      writeSecret := fun _ => [1]
      peerTransportParams := peer } }

/-- The same with a TLS engine that answers the first CRYPTO bytes with Handshake keys and a flight
of its own. -/
def Env.plainFlight (flight : Bytes) : Env :=
  { Env.plain with
    doHandshake := fun t =>
      if t.inData .initial = [] ∨ t.ssl ≠ 0 then t
      else { t with
        ssl := 1
        readSecret := fun l => if l = .handshake then [1] else t.readSecret l
        writeSecret := fun l => if l = .handshake then [1] else t.writeSecret l
        outCrypto := fun l => if l = .handshake then flight else t.outCrypto l } }

end Spaznet.Quic
