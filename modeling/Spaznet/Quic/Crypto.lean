import Spaznet.Quic.Varint

/-!
# Packet protection primitives

Key derivation, header-protection masks and the AEADs are OpenSSL's; `Crypto` takes them as
arbitrary functions, with the lengths that the callers fix by the buffers they pass.
-/

namespace Spaznet.Quic

inductive Aead where
  | aes128Gcm
  | aes256Gcm
  | chaCha20Poly1305
  deriving DecidableEq, Repr

inductive Hash where
  | sha256
  | sha384
  deriving DecidableEq, Repr

def aeadTagLength (_ : Aead) : Nat := 16

def aeadHash : Aead → Hash
  | .aes128Gcm | .chaCha20Poly1305 => .sha256
  | .aes256Gcm => .sha384

inductive Direction where
  | client
  | server
  deriving DecidableEq, Repr

structure PacketKeys where
  key : Bytes := []
  iv : Bytes := []
  hp : Bytes := []
  deriving DecidableEq, Repr

inductive CipherDirection where
  | encrypt
  | decrypt
  deriving DecidableEq, Repr

/-- A cipher bound to a key; `ready` is `ctx_ != nullptr`. -/
structure CipherCtx where
  ready : Bool := false
  aead : Aead := .aes128Gcm
  dir : CipherDirection := .encrypt
  key : Bytes := []
  deriving DecidableEq, Repr

instance neZero_five : NeZero 5 := ⟨by decide⟩

structure Crypto where
  deriveInitialSecret : Bytes → Direction → Bytes
  derivePacketKeys : Aead → Bytes → PacketKeys
  deriveNextApplicationSecret : Hash → Bytes → Bytes
  headerProtectionMask : Aead → (hpKey sample : Bytes) → Fin 5 → UInt8
  /-- Whether a context can be set up for the key. -/
  cipherInit : Aead → Bytes → CipherDirection → Bool
  aeadSeal : Aead → (key nonce aad plaintext : Bytes) → Option (Bytes × Bytes)
  aeadOpen : Aead → (key nonce aad body tag : Bytes) → Option Bytes
  length_aeadSeal : ∀ {aead key nonce aad plaintext ct tag},
    aeadSeal aead key nonce aad plaintext = some (ct, tag) →
      ct.length = plaintext.length ∧ tag.length = aeadTagLength aead
  length_aeadOpen : ∀ {aead key nonce aad body tag plaintext},
    aeadOpen aead key nonce aad body tag = some plaintext → plaintext.length = body.length

namespace CipherCtx

def init (y : Crypto) (aead : Aead) (key : Bytes) (dir : CipherDirection) : CipherCtx :=
  if y.cipherInit aead key dir then { ready := true, aead, dir, key } else {}

def sealInplace (y : Crypto) (ctx : CipherCtx) (nonce aad body : Bytes) : Option (Bytes × Bytes) :=
  if !ctx.ready || ctx.dir != .encrypt || ctx.key.isEmpty then none
  else y.aeadSeal ctx.aead ctx.key nonce aad body

def openInplace (y : Crypto) (ctx : CipherCtx) (nonce aad body tag : Bytes) : Option Bytes :=
  if !ctx.ready || ctx.dir != .decrypt || ctx.key.isEmpty then none
  else y.aeadOpen ctx.aead ctx.key nonce aad body tag

theorem aeadSeal_of_sealInplace {ctx : CipherCtx}
    (h : ctx.sealInplace y nonce aad body = some sealed) :
    y.aeadSeal ctx.aead ctx.key nonce aad body = some sealed := by
  unfold sealInplace at h
  split at h
  · cases h
  · exact h

theorem length_sealInplace {ctx : CipherCtx}
    (h : ctx.sealInplace y nonce aad body = some (ct, tag)) :
    ct.length = body.length ∧ tag.length = aeadTagLength ctx.aead :=
  y.length_aeadSeal (aeadSeal_of_sealInplace h)

end CipherCtx

end Spaznet.Quic
