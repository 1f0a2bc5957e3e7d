import Mathlib.Data.List.Forall2
import Custody.Key.Text
import Custody.Proofs.KeyMap
import Custody.Proofs.Layout
import Custody.Suite.Standard

set_option autoImplicit false

/-! # What is sealed is opened

A sealed copy opens, under the key that it was sealed with, to the same keys in the same order
(`Envelope.Seals.openKeys_eq`), and whatever opens holds only keys that can be made
(`Envelope.wellFormed_of_openKeys`). Of the cipher this takes only that decryption undoes
encryption, and that no text of `2 ^ 64` bytes or more is encrypted: `Suite.LawfulCipher`. -/

namespace Custody

/-- What the wallets rely on of the cipher. -/
class Suite.LawfulCipher [Suite] : Prop where
  decrypt_of_encrypt : ∀ {key : Block 32} {nonce : Block 24} {text ciphertext : Bytes},
    Suite.encrypt key nonce text = some ciphertext →
    Suite.decrypt key nonce ciphertext = some text
  length_lt_of_encrypt : ∀ {key : Block 32} {nonce : Block 24} {text ciphertext : Bytes},
    Suite.encrypt key nonce text = some ciphertext → text.length < 2 ^ 64

/-- XChaCha20-Poly1305 can be relied on. -/
instance Suite.lawfulCipher_standard : @Suite.LawfulCipher Suite.standard := by
  let _ := Suite.standard
  refine ⟨XChaCha20Poly1305.decrypt_encrypt, ?_⟩
  intro key nonce text ciphertext h
  have hfits : XChaCha20Poly1305.fits text = true := by
    by_contra hnot
    rw [show Suite.encrypt key nonce text = XChaCha20Poly1305.encrypt key nonce text from rfl,
      XChaCha20Poly1305.encrypt, if_neg hnot] at h
    simp at h
  simp only [XChaCha20Poly1305.fits, decide_eq_true_eq] at hfits
  omega

/-! ## Key records -/

/-- The bytes that are stored of a key of the scheme. -/
def KeyType.storedLength : KeyType → Nat
  | .ed25519 => 32
  | .falcon512 => 2178

namespace PrivateKey

variable [Suite]

theorem WellFormed.length_secretBytes {key : PrivateKey} (h : key.WellFormed) :
    key.secretBytes.length = key.keyType.storedLength := by
  cases htype : key.keyType with
  | ed25519 =>
    rw [WellFormed, htype] at h
    obtain ⟨seed, rfl⟩ := h
    exact seed.property
  | falcon512 =>
    rw [WellFormed, htype] at h
    obtain ⟨hsecret, hpublic⟩ := h
    simp only [secretBytes, htype, List.length_append, hsecret, hpublic, KeyType.storedLength]

theorem WellFormed.length_secretBytes_le {key : PrivateKey} (h : key.WellFormed) :
    key.secretBytes.length ≤ 2178 := by
  rw [h.length_secretBytes]
  cases key.keyType <;> decide

/-- What is stored of a key gives the key back. -/
theorem WellFormed.ofSecretBytes_secretBytes {key : PrivateKey} (h : key.WellFormed) :
    ofSecretBytes key.keyType key.secretBytes = .ok key := by
  cases htype : key.keyType with
  | ed25519 =>
    rw [WellFormed, htype] at h
    obtain ⟨seed, rfl⟩ := h
    simp only [ofSecretBytes, secretBytes, htype]
    rw [Block.ofBytes?_eq_some_iff.2 (show seed.val = (ofSeed seed).secret from rfl)]
  | falcon512 =>
    rw [WellFormed, htype] at h
    obtain ⟨hsecret, hpublic⟩ := h
    obtain ⟨secret, ⟨scheme, bytes⟩⟩ := key
    change scheme = .falcon512 at htype
    change secret.length = 1281 at hsecret
    change bytes.length = 897 at hpublic
    subst htype
    have hlength : (secret ++ bytes).length = 1281 + 897 := by
      rw [List.length_append, hsecret, hpublic]
    show ofSecretBytes .falcon512 (secret ++ bytes) = _
    rw [ofSecretBytes, if_pos hlength, List.take_left' hsecret, List.drop_left' hsecret]

/-- Whatever is read from stored bytes is a key that can be made. -/
theorem wellFormed_of_ofSecretBytes {keyType : KeyType} {raw : Bytes} {key : PrivateKey}
    (h : ofSecretBytes keyType raw = .ok key) : key.WellFormed := by
  unfold ofSecretBytes at h
  split at h
  · split at h
    · rename_i seed _
      cases h
      exact ⟨seed, rfl⟩
    · exact absurd h (by simp)
  · split at h
    · rename_i hlength
      cases h
      refine ⟨?_, ?_⟩
      · rw [List.length_take, hlength]
        rfl
      · rw [List.length_drop, hlength]
    · exact absurd h (by simp)

/-- What a key is read from is what is stored of it. -/
theorem eq_of_ofSecretBytes {keyType : KeyType} {raw : Bytes} {key : PrivateKey}
    (h : ofSecretBytes keyType raw = .ok key) : keyType = key.keyType ∧ raw = key.secretBytes := by
  unfold ofSecretBytes at h
  split at h
  · split at h
    · rename_i seed hseed
      cases h
      exact ⟨rfl, (Block.ofBytes?_eq_some_iff.1 hseed).symm⟩
    · exact absurd h (by simp)
  · split at h
    · cases h
      exact ⟨rfl, (List.take_append_drop 1281 raw).symm⟩
    · exact absurd h (by simp)

/-- Whatever is read from a text is a key that can be made. -/
theorem wellFormed_of_ofText {text : String} {key : PrivateKey} (h : ofText text = .ok key) :
    key.WellFormed := by
  unfold ofText at h
  cases hparse : KeyText.parse .privateKey text with
  | error fault =>
    rw [hparse] at h
    exact absurd h (by simp [bind, Except.bind])
  | ok parsed =>
    rw [hparse] at h
    exact wellFormed_of_ofSecretBytes h

/-- A fresh key is of a seed, or of a Falcon-512 key pair. -/
theorem cases_of_generate {keyType : KeyType} {key : PrivateKey} {entropy entropy' : Entropy}
    (h : (generate keyType).run entropy = (some key, entropy')) :
    (∃ seed : Block 32, key = ofSeed seed) ∨ ∃ (seed : Block 48) (secret : Block 1281)
      (pub : Block 897), Suite.falconKeyPair seed = some (secret, pub) ∧
        key = ⟨secret.val, ⟨.falcon512, pub.val⟩⟩ := by
  unfold generate at h
  cases keyType with
  | ed25519 =>
    cases h
    exact .inl ⟨_, rfl⟩
  | falcon512 =>
    simp only [StateT.run_bind] at h
    generalize (Entropy.draw 48).run entropy = drawn at h
    obtain ⟨seed, entropy₁⟩ := drawn
    change ((Suite.falconKeyPair seed).map fun pair =>
      (⟨pair.1.val, ⟨.falcon512, pair.2.val⟩⟩ : PrivateKey), entropy₁) = _ at h
    cases hpair : Suite.falconKeyPair seed with
    | none =>
      rw [hpair] at h
      cases h
    | some pair =>
      rw [hpair] at h
      cases h
      exact .inr ⟨seed, pair.1, pair.2, hpair, rfl⟩

/-- Fresh keys are keys that can be made. -/
theorem wellFormed_of_generate {keyType : KeyType} {key : PrivateKey} {entropy entropy' : Entropy}
    (h : (generate keyType).run entropy = (some key, entropy')) : key.WellFormed := by
  rcases cases_of_generate h with ⟨seed, rfl⟩ | ⟨seed, secret, pub, -, rfl⟩
  · exact ⟨seed, rfl⟩
  · exact ⟨secret.property, pub.property⟩

end PrivateKey

namespace KeyRecord

variable [Suite]

theorem toKey_ofKey {key : PrivateKey} (h : key.WellFormed) : (ofKey key).toKey = .ok key :=
  h.ofSecretBytes_secretBytes

theorem mapM_toKey_ofKey {keys : List PrivateKey} (h : ∀ key ∈ keys, key.WellFormed) :
    (keys.map ofKey).mapM toKey = .ok keys := by
  induction keys with
  | nil => rfl
  | cons key keys ih =>
    rw [List.map_cons, List.mapM_cons, toKey_ofKey (h key List.mem_cons_self),
      ih fun key' hkey' => h key' (List.mem_cons_of_mem key hkey')]
    rfl

theorem forall₂_of_mapM_toKey {records : List KeyRecord} {keys : List PrivateKey}
    (h : records.mapM toKey = .ok keys) :
    List.Forall₂ (fun record key => toKey record = .ok key) records keys := by
  induction records generalizing keys with
  | nil =>
    cases h
    exact .nil
  | cons record records ih =>
    rw [List.mapM_cons] at h
    cases hkey : toKey record with
    | error fault =>
      rw [hkey] at h
      exact absurd h (by simp [bind, Except.bind])
    | ok key =>
      cases hkeys : records.mapM toKey with
      | error fault =>
        rw [hkey, hkeys] at h
        exact absurd h (by simp [bind, Except.bind])
      | ok rest =>
        rw [hkey, hkeys] at h
        cases h
        exact .cons hkey (ih hkeys)

theorem wellFormed_of_mapM_toKey {records : List KeyRecord} {keys : List PrivateKey}
    (h : records.mapM toKey = .ok keys) : ∀ key ∈ keys, key.WellFormed := by
  replace h := forall₂_of_mapM_toKey h
  induction h with
  | nil => simp
  | cons hkey hrest ih =>
    intro key' hmem
    rcases List.mem_cons.1 hmem with rfl | hmem
    · exact PrivateKey.wellFormed_of_ofSecretBytes hkey
    · exact ih key' hmem

/-- Records that are read are those of the keys that they are read as. -/
theorem map_ofKey_of_mapM_toKey {records : List KeyRecord} {keys : List PrivateKey}
    (h : records.mapM toKey = .ok keys) : keys.map ofKey = records := by
  replace h := forall₂_of_mapM_toKey h
  induction h with
  | nil => rfl
  | @cons record key records keys hkey hrest ih =>
    obtain ⟨htype, hsecret⟩ := PrivateKey.eq_of_ofSecretBytes hkey
    rw [List.map_cons, ih, ofKey, ← htype, ← hsecret]

end KeyRecord

/-! ## Sealed copies -/

namespace Envelope

/-- Each key takes 12 bytes more than its secret, and all of them 8 more. -/
theorem length_plaintext (keys : List PrivateKey) :
    (plaintext keys).length = 8 + (keys.map fun key => 12 + key.secretBytes.length).sum := by
  have hrecords : ((keys.map KeyRecord.ofKey).flatMap KeyRecord.encode).length =
      (keys.map fun key => 12 + key.secretBytes.length).sum := by
    induction keys with
    | nil => rfl
    | cons key keys ih =>
      simp only [List.map_cons, List.flatMap_cons, List.length_append, ih, List.sum_cons,
        KeyRecord.encode, KeyRecord.ofKey, KeyType.encode, Binary.encodeUInt32,
        Binary.encodeBytes, Binary.encodeLength, Bytes.length_ofNat]
      omega
  rw [plaintext, Binary.encodeList, List.length_append, hrecords, Binary.encodeLength,
    Bytes.length_ofNat]

theorem length_le_length_plaintext (keys : List PrivateKey) :
    keys.length ≤ (plaintext keys).length := by
  have hsum : keys.length ≤ (keys.map fun key => 12 + key.secretBytes.length).sum := by
    induction keys with
    | nil => simp
    | cons key keys ih =>
      rw [List.length_cons, List.map_cons, List.sum_cons]
      omega
  rw [length_plaintext]
  omega

variable [Suite]

theorem keysOfPlaintext_plaintext {keys : List PrivateKey} (hkeys : ∀ key ∈ keys, key.WellFormed)
    (hlength : (plaintext keys).length < 2 ^ 64) : keysOfPlaintext (plaintext keys) = .ok keys := by
  have hrecords : (Binary.decodeList KeyRecord.decode).run (plaintext keys)
      = .ok (keys.map KeyRecord.ofKey) := by
    refine KeyRecord.exact.list.run_encode ⟨?_, ?_⟩
    · have := length_le_length_plaintext keys
      rw [List.length_map]
      omega
    · intro record hmem
      obtain ⟨key, hkey, rfl⟩ := List.mem_map.1 hmem
      have := (hkeys key hkey).length_secretBytes_le
      simp only [KeyRecord.Sized, KeyRecord.ofKey]
      omega
  simp only [keysOfPlaintext, hrecords, KeyRecord.mapM_toKey_ofKey hkeys]
  rfl

/-- Sealing draws a nonce and encrypts the records of the keys. -/
theorem run_ofKeys (keys : List PrivateKey) (key : Block 32) (kdf : KdfHeader)
    (entropy : Entropy) : (ofKeys keys key kdf).run entropy =
      (match Suite.encrypt key ((Entropy.draw 24).run entropy).1 (plaintext keys) with
        | some ciphertext =>
          .ok ⟨currentVersion, kdf, ((Entropy.draw 24).run entropy).1, ciphertext⟩
        | none => .error .encryption,
        ((Entropy.draw 24).run entropy).2) := by
  unfold ofKeys
  simp only [StateT.run_bind]
  generalize (Entropy.draw 24).run entropy = drawn
  obtain ⟨nonce, entropy'⟩ := drawn
  show StateT.run (match Suite.encrypt key nonce (plaintext keys) with
    | some ciphertext => pure (Except.ok (⟨currentVersion, kdf, nonce, ciphertext⟩ : Envelope))
    | none => pure (Except.error EnvelopeFault.encryption)) entropy' = _
  cases Suite.encrypt key nonce (plaintext keys) <;> rfl

/-- Keys that cannot be sealed are those whose records the cipher does not take. -/
theorem exists_of_run_ofKeys {keys : List PrivateKey} {key : Block 32} {kdf : KdfHeader}
    {entropy entropy' : Entropy} {fault : EnvelopeFault}
    (h : (ofKeys keys key kdf).run entropy = (.error fault, entropy')) :
    ∃ nonce, Suite.encrypt key nonce (plaintext keys) = none := by
  rw [run_ofKeys] at h
  refine ⟨((Entropy.draw 24).run entropy).1, ?_⟩
  cases hcipher : Suite.encrypt key ((Entropy.draw 24).run entropy).1 (plaintext keys) with
  | none => rfl
  | some ciphertext =>
    rw [hcipher] at h
    cases h

/-- The ciphertext of the records of keys opens to the keys. -/
theorem openKeys_of_encrypt [Suite.LawfulCipher] {keys : List PrivateKey} {key : Block 32}
    {nonce : Block 24} {ciphertext : Bytes} (hkeys : ∀ key ∈ keys, key.WellFormed)
    (hcipher : Suite.encrypt key nonce (plaintext keys) = some ciphertext) (kdf : KdfHeader) :
    openKeys ⟨currentVersion, kdf, nonce, ciphertext⟩ key = .ok keys := by
  simp only [openKeys, ne_eq, not_true, if_false, Suite.LawfulCipher.decrypt_of_encrypt hcipher]
  exact keysOfPlaintext_plaintext hkeys (Suite.LawfulCipher.length_lt_of_encrypt hcipher)

/-- The envelope was made of the keys of a map, under a wallet key and for a header. -/
def Seals (envelope : Envelope) (keys : KeyMap) (key : Block 32) (kdf : KdfHeader) : Prop :=
  ∃ entropy entropy', (ofKeys keys.values key kdf).run entropy = (.ok envelope, entropy')

section Seals

variable {envelope : Envelope} {keys : KeyMap} {key : Block 32} {kdf : KdfHeader}

/-- What a sealed copy is made of. -/
theorem Seals.eq (h : envelope.Seals keys key kdf) :
    ∃ nonce ciphertext, Suite.encrypt key nonce (plaintext keys.values) = some ciphertext ∧
      envelope = ⟨currentVersion, kdf, nonce, ciphertext⟩ := by
  obtain ⟨entropy, entropy', h⟩ := h
  rw [run_ofKeys] at h
  cases hcipher : Suite.encrypt key ((Entropy.draw 24).run entropy).1 (plaintext keys.values) with
  | none =>
    rw [hcipher] at h
    cases h
  | some ciphertext =>
    rw [hcipher] at h
    cases h
    exact ⟨_, ciphertext, hcipher, rfl⟩

theorem Seals.kdf_eq (h : envelope.Seals keys key kdf) : envelope.kdf = kdf := by
  obtain ⟨nonce, ciphertext, -, rfl⟩ := h.eq
  rfl

theorem Seals.version_eq (h : envelope.Seals keys key kdf) :
    envelope.version = currentVersion := by
  obtain ⟨nonce, ciphertext, -, rfl⟩ := h.eq
  rfl

/-- A sealed copy opens to the keys it was made of. -/
theorem Seals.openKeys_eq [Suite.LawfulCipher] (h : envelope.Seals keys key kdf)
    (hkeys : keys.Filed) : envelope.openKeys key = .ok keys.values := by
  obtain ⟨nonce, ciphertext, hcipher, rfl⟩ := h.eq
  exact openKeys_of_encrypt (fun key hkey => hkeys.wellFormed_of_mem_values hkey) hcipher kdf

end Seals

/-- Whatever key opens a sealed copy, it holds only keys that can be made. -/
theorem wellFormed_of_openKeys {envelope : Envelope} {key : Block 32} {keys : List PrivateKey}
    (h : envelope.openKeys key = .ok keys) : ∀ key ∈ keys, key.WellFormed := by
  unfold openKeys at h
  split at h
  · exact absurd h (by simp)
  · split at h
    · exact absurd h (by simp)
    · unfold keysOfPlaintext at h
      split at h
      · exact absurd h (by simp)
      · rename_i records _
        cases hkeys : records.mapM KeyRecord.toKey with
        | error fault =>
          rw [hkeys] at h
          exact absurd h (by simp [Except.mapError])
        | ok opened =>
          rw [hkeys] at h
          cases h
          exact KeyRecord.wellFormed_of_mapM_toKey hkeys

end Envelope

end Custody
