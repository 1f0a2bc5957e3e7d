import Custody.Entropy
import Custody.Key.Basic
import Custody.Text.Hex

set_option autoImplicit false

/-! # Private keys

A private key is kept with its public half. What is stored of it is the seed of an Ed25519 key, and
both halves of a Falcon-512 key, one after the other. Every way of making a private key gives one
that is `PrivateKey.WellFormed`, and such a key always signs. -/

namespace Custody

/-- Why bytes or texts are no key, signature or chain id. -/
inductive KeyFault
  /-- The text does not have the form that the kind of key asks for. -/
  | form (kind : String)
  | unknownType (text : String)
  | hex (fault : Hex.Fault)
  | ed25519PublicLength
  | ed25519Point
  | ed25519PrivateLength
  | ed25519SignatureLength
  | falconPublicLength
  | falconPrivateLength
  | chainHex (fault : Hex.Fault)
  | chainLength
  deriving DecidableEq, Repr

def KeyFault.message : KeyFault → String
  | .form kind => "expected " ++ kind ++ "_<TYPE>_<hex>"
  | .unknownType text => "unknown key type " ++ Text.quote text
  | .hex fault => fault.message
  | .ed25519PublicLength => "Ed25519 public key must be 32 bytes"
  | .ed25519Point => "signature error: Cannot decompress Edwards point"
  | .ed25519PrivateLength => "Ed25519 private key must be 32 bytes"
  | .ed25519SignatureLength => "Ed25519 signature must be 64 bytes"
  | .falconPublicLength => "Invalid Falcon public key bytes"
  | .falconPrivateLength => "Falcon512 private key must be 2178 bytes"
  | .chainHex fault => "chain id: " ++ fault.message
  | .chainLength => "chain id must be 32 bytes"

/-- A private key with its public half. -/
structure PrivateKey where
  secret : Bytes
  publicKey : PublicKey
  deriving DecidableEq, Repr, Inhabited

/-- A map from public keys to the private keys that are kept under them. -/
abbrev KeyMap := Std.ExtTreeMap PublicKey PrivateKey

namespace PrivateKey

/-- The scheme of the key. -/
def keyType (key : PrivateKey) : KeyType := key.publicKey.keyType

/-- The Ed25519 key of a seed. -/
def ofSeed [Suite] (seed : Block 32) : PrivateKey :=
  ⟨seed.val, ⟨.ed25519, (Suite.ed25519Public seed).val⟩⟩

/-- What is stored of a key: the secret half, and for Falcon-512 the public half after it. -/
def secretBytes (key : PrivateKey) : Bytes :=
  match key.keyType with
  | .ed25519 => key.secret
  | .falcon512 => key.secret ++ key.publicKey.bytes

/-- The key that was stored. The halves of a Falcon-512 key are taken as they are. -/
def ofSecretBytes [Suite] (keyType : KeyType) (raw : Bytes) : Except KeyFault PrivateKey :=
  match keyType with
  | .ed25519 =>
    match Block.ofBytes? 32 raw with
    | some seed => .ok (ofSeed seed)
    | none => .error .ed25519PrivateLength
  | .falcon512 =>
    if raw.length = 1281 + 897 then .ok ⟨raw.take 1281, ⟨.falcon512, raw.drop 1281⟩⟩
    else .error .falconPrivateLength

/-- What every key that can be made satisfies: both halves have the lengths of their scheme, and the
    public half of an Ed25519 key is the one of its seed. -/
def WellFormed [Suite] (key : PrivateKey) : Prop :=
  match key.keyType with
  | .ed25519 => ∃ seed : Block 32, key = ofSeed seed
  | .falcon512 => key.secret.length = 1281 ∧ key.publicKey.bytes.length = 897

/-- A fresh key; none if no Falcon-512 key pair is found. -/
def generate [Suite] (keyType : KeyType) : StateM Entropy (Option PrivateKey) := do
  match keyType with
  | .ed25519 =>
    let seed ← Entropy.draw 32
    return some (ofSeed seed)
  | .falcon512 =>
    let seed ← Entropy.draw 48
    return (Suite.falconKeyPair seed).map fun (secret, pub) =>
      ⟨secret.val, ⟨.falcon512, pub.val⟩⟩

end PrivateKey

/-! ## Signing -/

/-- Why a key does not sign. -/
inductive SigningFault
  | seedLength
  | secretKeyLength
  deriving DecidableEq, Repr

def SigningFault.message : SigningFault → String
  | .seedLength => "Ed25519 seed must be 32 bytes"
  | .secretKeyLength => "Invalid Falcon secret key bytes"

/-- The key's signature of a digest. A Falcon-512 signature takes a random nonce and seed. -/
def PrivateKey.sign [Suite] (key : PrivateKey) (digest : Digest) :
    StateM Entropy (Except SigningFault Signature) := do
  match key.keyType with
  | .ed25519 =>
    match Block.ofBytes? 32 key.secret with
    | some seed => return .ok ⟨.ed25519, (Suite.ed25519Sign seed digest.val).val⟩
    | none => return .error .seedLength
  | .falcon512 =>
    match Block.ofBytes? 1281 key.secret with
    | some secret =>
      let nonce ← Entropy.draw 40
      let seed ← Entropy.draw 48
      return .ok ⟨.falcon512, Suite.falconSign secret nonce seed digest.val⟩
    | none => return .error .secretKeyLength

end Custody
