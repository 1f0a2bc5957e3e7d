import Custody.Argon2id
import Custody.Cipher.XChaCha20Poly1305
import Custody.Ed25519
import Custody.Falcon.KeyPair
import Custody.Falcon.Signing
import Custody.Suite

set_option autoImplicit false

/-! # The standard primitives

SHA-256, SHAKE256, Argon2id, XChaCha20-Poly1305, Ed25519 and Falcon-512. -/

namespace Custody

/-- The primitives that wallet files and signatures are made with. -/
@[reducible] def Suite.standard : Suite where
  sha256 := Sha256.hash
  shake256 := Shake256.hash
  deriveKey := fun cost password salt => Argon2id.derive cost password salt.val
  encrypt := XChaCha20Poly1305.encrypt
  decrypt := XChaCha20Poly1305.decrypt
  ed25519Public := Ed25519.publicKey
  ed25519Sign := Ed25519.sign
  ed25519Verify := Ed25519.verify
  ed25519IsPoint := Ed25519.isPoint
  falconKeyPair := Falcon.keyPair
  falconSign := fun secret => Falcon.sign secret.val
  falconVerify := fun key => Falcon.verify key.val

end Custody
