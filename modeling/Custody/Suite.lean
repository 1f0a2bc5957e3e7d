import Custody.Text.Utf8

set_option autoImplicit false

/-! # Cryptographic primitives

The hashes, the password derivation, the authenticated cipher and the two signature schemes that
the wallets are built on. Everything above them is written against this interface, so that a
statement about wallets names exactly those properties of the primitives that it rests on. -/

namespace Custody

/-- How much work a derivation takes: memory in KiB, passes over it, and independent lanes. -/
structure KdfCost where
  memory : UInt32
  passes : UInt32
  lanes : UInt32
  deriving DecidableEq, Repr

/-- A choice of primitives. -/
class Suite where
  /-- The digest that transactions and chain names are signed through. -/
  sha256 : Bytes → Block 32
  /-- The digest that names a transaction. -/
  shake256 : Bytes → Block 32
  /-- The key for a password and a salt, at a valid cost. -/
  deriveKey : KdfCost → Bytes → Block 32 → Block 32
  /-- The authenticated ciphertext of a text under a key and nonce; none if the text is too long. -/
  encrypt : Block 32 → Block 24 → Bytes → Option Bytes
  /-- The text of a ciphertext; none if it was not made under the key and nonce. -/
  decrypt : Block 32 → Block 24 → Bytes → Option Bytes
  /-- The Ed25519 public key of a seed. -/
  ed25519Public : Block 32 → Block 32
  /-- The Ed25519 signature of a message under a seed. -/
  ed25519Sign : Block 32 → Bytes → Block 64
  /-- Whether an Ed25519 signature is valid for a message under a public key. -/
  ed25519Verify : Block 32 → Bytes → Block 64 → Bool
  /-- Whether bytes are an Ed25519 public key at all. -/
  ed25519IsPoint : Block 32 → Bool
  /-- The Falcon-512 secret and public key for a random seed; none if the search for them fails. -/
  falconKeyPair : Block 48 → Option (Block 1281 × Block 897)
  /-- The Falcon-512 signature of a message under a secret key, with a nonce and a random seed;
      empty if the secret key is not one. -/
  falconSign : Block 1281 → Block 40 → Block 48 → Bytes → Bytes
  /-- Whether a Falcon-512 signature is valid for a message under a public key. -/
  falconVerify : Block 897 → Bytes → Bytes → Bool

/-- A digest of 32 bytes. -/
abbrev Digest := Block 32

end Custody
