import Custody.Proofs.Envelope.Sealing
import Custody.Proofs.Key.Text

set_option autoImplicit false

/-! # Sealing any keys

Whatever keys a program can have come from a random source, from a text or from a sealed copy
(`PrivateKey.Obtained`). Any list of them is sealed, as long as the cipher takes a text of its
length, and opens to the same list: `Envelope.seal_round_trip`. Beyond `Suite.LawfulCipher`, that
takes of the cipher how long a text may be and how long its ciphertext is. -/

namespace Custody

/-- A cipher that takes exactly the texts up to a length, and adds 16 bytes to them. -/
class Suite.SizedCipher [Suite] (limit : outParam Nat) : Prop extends Suite.LawfulCipher where
  isSome_encrypt_iff : ∀ (key : Block 32) (nonce : Block 24) (text : Bytes),
    (Suite.encrypt key nonce text).isSome = true ↔ text.length ≤ limit
  length_of_encrypt : ∀ {key : Block 32} {nonce : Block 24} {text ciphertext : Bytes},
    Suite.encrypt key nonce text = some ciphertext → ciphertext.length = text.length + 16

/-- The longest text that XChaCha20-Poly1305 takes: its block counter has 32 bits. -/
def XChaCha20Poly1305.maxLength : Nat := 64 * 0xffffffff - 1

instance Suite.sizedCipher_standard :
    @Suite.SizedCipher Suite.standard XChaCha20Poly1305.maxLength := by
  let _ := Suite.standard
  refine { Suite.lawfulCipher_standard with
    isSome_encrypt_iff := ?_
    length_of_encrypt := XChaCha20Poly1305.length_of_encrypt }
  intro key nonce text
  show (XChaCha20Poly1305.encrypt key nonce text).isSome = true ↔ _
  unfold XChaCha20Poly1305.encrypt XChaCha20Poly1305.maxLength
  by_cases hfits : XChaCha20Poly1305.fits text = true
  · rw [if_pos hfits]
    simp only [XChaCha20Poly1305.fits, decide_eq_true_eq] at hfits
    simp only [Option.isSome_some, true_iff]
    omega
  · rw [if_neg hfits]
    simp only [XChaCha20Poly1305.fits, decide_eq_true_eq] at hfits
    simp only [Option.isSome_none, Bool.false_eq_true, false_iff]
    omega

/-! ## Keys that a program can have -/

namespace PrivateKey

variable [Suite] {key : PrivateKey}

/-- Where private keys come from. -/
inductive Obtained : PrivateKey → Prop
  | generated {keyType : KeyType} {key : PrivateKey} {entropy entropy' : Entropy}
    (h : (generate keyType).run entropy = (some key, entropy')) : Obtained key
  | read {text : String} {key : PrivateKey} (h : ofText text = .ok key) : Obtained key
  | opened {envelope : Envelope} {walletKey : Block 32} {keys : List PrivateKey} {key : PrivateKey}
    (h : envelope.openKeys walletKey = .ok keys) (hkey : key ∈ keys) : Obtained key

/-- The keys that a program can have are those that are well-formed. -/
theorem obtained_iff_wellFormed : key.Obtained ↔ key.WellFormed := by
  constructor
  · intro h
    cases h with
    | generated h => exact wellFormed_of_generate h
    | read h => exact wellFormed_of_ofText h
    | opened h hkey => exact Envelope.wellFormed_of_openKeys h key hkey
  · intro h
    exact .read h.ofText_toText

end PrivateKey

/-! ## Sealing and opening -/

namespace Envelope

/-- The bytes that are encrypted of some keys: 8 for their number, and for each key 12 more than are
    stored of it. -/
def recordedLength (keys : List PrivateKey) : Nat :=
  8 + (keys.map fun key => 12 + key.keyType.storedLength).sum

section Suite

variable [Suite]

theorem length_plaintext_of_wellFormed {keys : List PrivateKey}
    (hkeys : ∀ key ∈ keys, key.WellFormed) : (plaintext keys).length = recordedLength keys := by
  rw [length_plaintext, recordedLength]
  congr 2
  apply List.map_congr_left
  intro key hkey
  rw [(hkeys key hkey).length_secretBytes]

theorem openKeys_of_version_ne {envelope : Envelope} (h : envelope.version ≠ currentVersion)
    (key : Block 32) : envelope.openKeys key = .error (.version envelope.version) := by
  unfold openKeys
  rw [if_pos h]

/-- Any list of keys, of whatever types and with repetitions, is sealed under any wallet key, header
    and nonce, if the cipher takes a text of that length, and opens under the wallet key to the same
    list; if it does not, sealing fails. A sealed copy of another version does not open at all. -/
theorem seal_round_trip {limit : Nat} [Suite.SizedCipher limit] {keys : List PrivateKey}
    (hkeys : ∀ key ∈ keys, key.Obtained) (key : Block 32) (kdf : KdfHeader) (entropy : Entropy) :
    (recordedLength keys ≤ limit → ∃ envelope : Envelope,
      ((ofKeys keys key kdf).run entropy).1 = .ok envelope ∧
      envelope.version = 2 ∧ envelope.kdf = kdf ∧
      envelope.nonce = ((Entropy.draw 24).run entropy).1 ∧
      envelope.ciphertext.length =
        24 + (keys.map fun key => 12 + key.keyType.storedLength).sum ∧
      envelope.openKeys key = .ok keys) ∧
    (limit < recordedLength keys →
      ((ofKeys keys key kdf).run entropy).1 = .error .encryption) ∧
    (∀ (envelope : Envelope) (key : Block 32), envelope.version ≠ 2 →
      envelope.openKeys key = .error (.version envelope.version)) := by
  have hmade : ∀ key ∈ keys, key.WellFormed :=
    fun key hkey => PrivateKey.obtained_iff_wellFormed.1 (hkeys key hkey)
  have htakes := Suite.SizedCipher.isSome_encrypt_iff key
    ((Entropy.draw 24).run entropy).1 (plaintext keys)
  rw [length_plaintext_of_wellFormed hmade] at htakes
  rw [run_ofKeys]
  refine ⟨?_, ?_, fun envelope key hversion => openKeys_of_version_ne hversion key⟩
  · intro hfits
    obtain ⟨ciphertext, hcipher⟩ := Option.isSome_iff_exists.1 (htakes.2 hfits)
    have hlength := Suite.SizedCipher.length_of_encrypt hcipher
    rw [length_plaintext_of_wellFormed hmade, recordedLength] at hlength
    simp only [hcipher]
    exact ⟨_, rfl, rfl, rfl, rfl, by simp only [hlength]; omega,
      openKeys_of_encrypt hmade hcipher kdf⟩
  · intro hlarge
    cases hcipher : Suite.encrypt key ((Entropy.draw 24).run entropy).1 (plaintext keys) with
    | none => rfl
    | some ciphertext =>
      rw [hcipher] at htakes
      exact absurd (htakes.1 rfl) (Nat.not_le.2 hlarge)

end Suite

section Mixed

local instance roundTripPrimitives : Suite := Suite.standard

/-- A key of each scheme, and the first once more. -/
def mixedKeys : List PrivateKey :=
  [.ofSeed default, ⟨List.replicate 1281 0, ⟨.falcon512, List.replicate 897 1⟩⟩, .ofSeed default]

theorem obtained_of_mem_mixedKeys : ∀ key ∈ mixedKeys, key.Obtained := by
  have hfresh : (PrivateKey.ofSeed default).Obtained :=
    PrivateKey.obtained_iff_wellFormed.2 ⟨default, rfl⟩
  have hread :
      (⟨List.replicate 1281 0, ⟨.falcon512, List.replicate 897 1⟩⟩ : PrivateKey).Obtained :=
    PrivateKey.obtained_iff_wellFormed.2 ⟨List.length_replicate, List.length_replicate⟩
  simp only [mixedKeys, List.forall_mem_cons, List.not_mem_nil, false_implies, implies_true]
  exact ⟨hfresh, hread, hfresh, trivial⟩

/-- With the standard primitives, keys of both schemes are sealed and opened. -/
theorem seal_round_trip_of_mixed : ∃ envelope : Envelope,
    ((ofKeys mixedKeys default ⟨.light, default⟩).run ⟨fun _ => 0, 0⟩).1 = .ok envelope ∧
      envelope.ciphertext.length = 2302 ∧ envelope.openKeys default = .ok mixedKeys := by
  obtain ⟨hseal, -, -⟩ := seal_round_trip obtained_of_mem_mixedKeys default ⟨.light, default⟩
    ⟨fun _ => 0, 0⟩
  obtain ⟨envelope, hsealed, -, -, -, hlength, hopen⟩ := hseal (by decide)
  exact ⟨envelope, hsealed, hlength, hopen⟩

end Mixed

end Envelope

end Custody
