import Custody.Proofs.Envelope.Sealing

set_option autoImplicit false

/-! # Primitives that hide nothing

A choice of primitives under which operations can be carried out by hand: a key is the password, a
ciphertext is the text with its key and nonce before it, and a signature is the message with the key
before it. It has the laws that wallets rely on and none of the secrecy. -/

namespace Custody

/-- Primitives that hide nothing. -/
@[reducible] def Suite.plain : Suite where
  sha256 := Block.fit 32
  shake256 := Block.fit 32
  deriveKey _ password _ := Block.fit 32 password
  encrypt key nonce text :=
    if text.length < 2 ^ 64 then some (key.val ++ nonce.val ++ text) else none
  decrypt key nonce ciphertext :=
    if ciphertext.take 56 = key.val ++ nonce.val then some (ciphertext.drop 56) else none
  ed25519Public seed := seed
  ed25519Sign seed message := Block.fit 64 (seed.val ++ message)
  ed25519Verify key message signature := signature = Block.fit 64 (key.val ++ message)
  ed25519IsPoint _ := true
  falconKeyPair seed := some (Block.fit 1281 seed.val, Block.fit 897 seed.val)
  falconSign secret _ _ message := secret.val.take 897 ++ message
  falconVerify key message signature := signature = key.val ++ message

instance Suite.lawfulCipher_plain : @Suite.LawfulCipher Suite.plain := by
  let _ := Suite.plain
  have hencrypt : ∀ {key : Block 32} {nonce : Block 24} {text ciphertext : Bytes},
      Suite.encrypt key nonce text = some ciphertext →
      text.length < 2 ^ 64 ∧ ciphertext = key.val ++ nonce.val ++ text := by
    intro key nonce text ciphertext h
    change (if text.length < 2 ^ 64 then some (key.val ++ nonce.val ++ text) else none) = _ at h
    split at h
    · rename_i hlength
      cases h
      exact ⟨hlength, rfl⟩
    · exact absurd h (by simp)
  refine ⟨?_, fun h => (hencrypt h).1⟩
  intro key nonce text ciphertext h
  obtain ⟨-, rfl⟩ := hencrypt h
  have hfront : (key.val ++ nonce.val).length = 56 := by
    rw [List.length_append, key.property, nonce.property]
  show (if (key.val ++ nonce.val ++ text).take 56 = key.val ++ nonce.val then
    some ((key.val ++ nonce.val ++ text).drop 56) else none) = _
  rw [List.take_left' hfront, List.drop_left' hfront, if_pos rfl]

end Custody
