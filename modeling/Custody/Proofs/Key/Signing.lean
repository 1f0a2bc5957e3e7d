import Custody.Proofs.Envelope.Sealing
import Custody.Proofs.Suite.Plain

set_option autoImplicit false

/-! # What a private key signs

A key that can be made always signs (`PrivateKey.WellFormed.exists_sign`). Whether its signatures
are valid under its own public half depends on its halves belonging together: those of an Ed25519
key and of a fresh key do, and those of a Falcon-512 key that was read are whatever the text said.
`PrivateKey.WellFormed.paired_iff` shows that `PrivateKey.Paired` is exactly what it takes. -/

namespace Custody

/-! ## What is relied on of the schemes -/

/-- The halves belong together: whatever is drawn for a signature of the secret half, it is valid
    under the public half. -/
def Suite.FalconPair [Suite] (secret : Block 1281) (pub : Block 897) : Prop :=
  ∀ (nonce : Block 40) (seed : Block 48) (digest : Digest),
    Suite.falconVerify pub digest.val (Suite.falconSign secret nonce seed digest.val) = true

/-- What the wallets rely on of the signature schemes. -/
class Suite.LawfulSigning [Suite] : Prop where
  ed25519Verify_sign : ∀ (seed : Block 32) (message : Bytes),
    Suite.ed25519Verify (Suite.ed25519Public seed) message (Suite.ed25519Sign seed message) = true
  falconPair_of_keyPair : ∀ {seed : Block 48} {secret : Block 1281} {pub : Block 897},
    Suite.falconKeyPair seed = some (secret, pub) → Suite.FalconPair secret pub

theorem Block.ofBytes?_val {n : Nat} (block : Block n) : Block.ofBytes? n block.val = some block :=
  Block.ofBytes?_eq_some_iff.2 rfl

/-- Fitting to fewer bytes is the beginning of fitting to more. -/
theorem Block.take_fit {m n : Nat} (h : m ≤ n) (bytes : Bytes) :
    (Block.fit n bytes).val.take m = (Block.fit m bytes).val := by
  show ((bytes ++ List.replicate n 0).take n).take m = (bytes ++ List.replicate m 0).take m
  rw [List.take_take, Nat.min_eq_left h, List.take_append, List.take_append, List.take_replicate,
    List.take_replicate]
  congr 2
  omega

instance Suite.lawfulSigning_plain : @Suite.LawfulSigning Suite.plain := by
  let _ := Suite.plain
  refine ⟨fun seed message => decide_eq_true rfl, ?_⟩
  intro seed secret pub h nonce seed' digest
  cases h
  exact decide_eq_true (congrArg (· ++ digest.val) (Block.take_fit (by omega) seed.val))

/-! ## Random bytes -/

/-- Any bytes may be what is drawn next. -/
theorem Entropy.exists_draw {m n : Nat} (front : Block m) (back : Block n) :
    ∃ entropy : Entropy, ((draw m).run entropy).1 = front ∧
      ((draw n).run ((draw m).run entropy).2).1 = back := by
  refine ⟨⟨fun i => (front.val ++ back.val).getD i 0, 0⟩, ?_, ?_⟩
  · apply Subtype.ext
    show ((List.range m).map fun i => (front.val ++ back.val).getD (0 + i) 0) = front.val
    apply List.ext_getElem (by simp [front.property])
    intro i _ hi
    simp only [List.getElem_map, List.getElem_range, Nat.zero_add, List.getD_eq_getElem?_getD,
      List.getElem?_append_left hi, List.getElem?_eq_getElem hi, Option.getD_some]
  · apply Subtype.ext
    show ((List.range n).map fun i => (front.val ++ back.val).getD (0 + m + i) 0) = back.val
    apply List.ext_getElem (by simp [back.property])
    intro i _ hi
    have hfront : front.val.length ≤ m + i := by
      rw [front.property]
      omega
    simp only [List.getElem_map, List.getElem_range, Nat.zero_add, List.getD_eq_getElem?_getD,
      List.getElem?_append_right hfront, front.property, Nat.add_sub_cancel_left,
      List.getElem?_eq_getElem hi, Option.getD_some]

/-- The signature belongs to the scheme, and has 64 bytes if that is Ed25519; the signatures of
    Falcon-512 are of no fixed length. -/
def Signature.IsOf (signature : Signature) (keyType : KeyType) : Prop :=
  signature.keyType = keyType ∧ (keyType = .ed25519 → signature.bytes.length = 64)

namespace PrivateKey

variable [Suite] {key : PrivateKey} {digest : Digest} {signature : Signature} {entropy : Entropy}

/-- The halves of the key belong together, as far as that is not so by construction. -/
def Paired (key : PrivateKey) : Prop :=
  key.keyType = .falcon512 → ∀ (secret : Block 1281) (pub : Block 897),
    secret.val = key.secret → pub.val = key.publicKey.bytes → Suite.FalconPair secret pub

/-! ## Signing -/

/-- A key that can be made is of a seed, or has halves of the right lengths. -/
theorem WellFormed.cases (h : key.WellFormed) : (∃ seed : Block 32, key = ofSeed seed) ∨
    ∃ (secret : Block 1281) (pub : Block 897),
      key = ⟨secret.val, ⟨.falcon512, pub.val⟩⟩ := by
  obtain ⟨secret, ⟨scheme, bytes⟩⟩ := key
  cases scheme with
  | ed25519 => exact .inl h
  | falcon512 => exact .inr ⟨⟨secret, h.1⟩, ⟨bytes, h.2⟩, rfl⟩

/-- The halves of an Ed25519 key are a seed and what is derived of it, those of a Falcon-512 key have
    their lengths. -/
theorem WellFormed.halves (h : key.WellFormed) :
    (key.keyType = .ed25519 → ∃ seed : Block 32, key.secret = seed.val ∧
      key.publicKey.bytes = (Suite.ed25519Public seed).val) ∧
    (key.keyType = .falcon512 →
      key.secret.length = 1281 ∧ key.publicKey.bytes.length = 897) := by
  rcases h.cases with ⟨seed, rfl⟩ | ⟨secret, pub, rfl⟩
  · exact ⟨fun _ => ⟨seed, rfl, rfl⟩, fun htype => absurd htype (by simp [keyType, ofSeed])⟩
  · exact ⟨fun htype => absurd htype (by simp [keyType]), fun _ => ⟨secret.property, pub.property⟩⟩

theorem sign_ofSeed (seed : Block 32) (digest : Digest) (entropy : Entropy) :
    ((ofSeed seed).sign digest).run entropy =
      (.ok ⟨.ed25519, (Suite.ed25519Sign seed digest.val).val⟩, entropy) := by
  unfold sign
  simp only [keyType, ofSeed, Block.ofBytes?_val]
  rfl

theorem sign_falcon (secret : Block 1281) (pub : Bytes) (digest : Digest) (entropy : Entropy) :
    ((⟨secret.val, ⟨.falcon512, pub⟩⟩ : PrivateKey).sign digest).run entropy =
      (let nonce := (Entropy.draw 40).run entropy
      let seed := (Entropy.draw 48).run nonce.2
      (.ok ⟨.falcon512, Suite.falconSign secret nonce.1 seed.1 digest.val⟩, seed.2)) := by
  unfold sign
  simp only [keyType, Block.ofBytes?_val]
  rfl

/-- A key that can be made never fails to sign. -/
theorem WellFormed.exists_sign (h : key.WellFormed) (digest : Digest) (entropy : Entropy) :
    ∃ signature entropy', (key.sign digest).run entropy = (.ok signature, entropy') := by
  rcases h.cases with ⟨seed, rfl⟩ | ⟨secret, pub, rfl⟩
  · exact ⟨_, _, sign_ofSeed seed digest entropy⟩
  · exact ⟨_, _, sign_falcon secret pub.val digest entropy⟩

/-- What a key that can be made signs is of the key's scheme. -/
theorem WellFormed.isOf_of_sign (h : key.WellFormed)
    (hsign : ((key.sign digest).run entropy).1 = .ok signature) : signature.IsOf key.keyType := by
  rcases h.cases with ⟨seed, rfl⟩ | ⟨secret, pub, rfl⟩
  · rw [sign_ofSeed] at hsign
    cases hsign
    exact ⟨rfl, fun _ => (Suite.ed25519Sign seed digest.val).property⟩
  · rw [sign_falcon] at hsign
    cases hsign
    exact ⟨rfl, fun htype => absurd htype (by simp [keyType])⟩

/-- If the halves of the key belong together, whatever it signs is valid under its public half. -/
theorem WellFormed.verify_of_paired [Suite.LawfulSigning] (h : key.WellFormed)
    (hpaired : key.Paired) (hsign : ((key.sign digest).run entropy).1 = .ok signature) :
    key.publicKey.verify digest signature = true := by
  rcases h.cases with ⟨seed, rfl⟩ | ⟨secret, pub, rfl⟩
  · rw [sign_ofSeed] at hsign
    cases hsign
    unfold PublicKey.verify
    simp only [ofSeed, decide_true, Bool.true_and, Block.ofBytes?_val]
    exact Suite.LawfulSigning.ed25519Verify_sign seed digest.val
  · rw [sign_falcon] at hsign
    cases hsign
    unfold PublicKey.verify
    simp only [decide_true, Bool.true_and, Block.ofBytes?_val]
    exact hpaired rfl secret pub rfl rfl _ _ digest

/-- The halves of a key belong together exactly if whatever it signs is valid. -/
theorem WellFormed.paired_iff [Suite.LawfulSigning] (h : key.WellFormed) : key.Paired ↔
    ∀ (digest : Digest) (entropy : Entropy) (signature : Signature),
      ((key.sign digest).run entropy).1 = .ok signature →
      key.publicKey.verify digest signature = true := by
  refine ⟨fun hpaired digest entropy signature hsign => h.verify_of_paired hpaired hsign, ?_⟩
  intro hvalid
  rcases h.cases with ⟨seed, rfl⟩ | ⟨secret, pub, rfl⟩
  · intro htype
    exact absurd htype (by simp [keyType, ofSeed])
  · intro _ secret' pub' hsecret hpub nonce seed digest
    obtain rfl : secret' = secret := Subtype.ext hsecret
    obtain rfl : pub' = pub := Subtype.ext hpub
    obtain ⟨entropy, hnonce, hseed⟩ := Entropy.exists_draw nonce seed
    have hverify := hvalid digest entropy _ (by rw [sign_falcon])
    unfold PublicKey.verify at hverify
    simp only [decide_true, Bool.true_and, Block.ofBytes?_val, hnonce, hseed] at hverify
    exact hverify

/-! ## Keys with halves that belong together -/

theorem paired_of_ed25519 (htype : key.keyType = .ed25519) : key.Paired := by
  intro hfalcon
  exact absurd hfalcon (by simp [htype])

/-- The halves of a fresh key belong together. -/
theorem paired_of_generate [Suite.LawfulSigning] {keyType : KeyType} {entropy' : Entropy}
    (h : (generate keyType).run entropy = (some key, entropy')) : key.Paired := by
  rcases cases_of_generate h with ⟨seed, rfl⟩ | ⟨seed, secret, pub, hpair, rfl⟩
  · exact paired_of_ed25519 rfl
  · intro _ secret' pub' hsecret hpub
    obtain rfl : secret' = secret := Subtype.ext hsecret
    obtain rfl : pub' = pub := Subtype.ext hpub
    exact Suite.LawfulSigning.falconPair_of_keyPair hpair

end PrivateKey

end Custody
