import Mathlib.Data.List.Perm.Subperm
import Mathlib.Algebra.Order.BigOperators.Group.List
import Mathlib.Algebra.Order.Group.Nat
import Custody.Proofs.Envelope.RoundTrip
import Custody.Proofs.Wallet.Turning

set_option autoImplicit false

/-! # Keys that can be sealed anew

The keys of a session have been sealed once, or were opened from a sealed copy. The records of as
many keys are not too long for the cipher, so that they can be sealed under any other key as well:
`SoftWallet.Reachable.isSealable`. In particular a new password is never refused because of the keys
that an open wallet holds. -/

namespace Custody

/-- A cipher of which what comes out could have gone in: the text of a ciphertext is 16 bytes
    shorter than that, and not too long. -/
class Suite.BoundedCipher [Suite] (limit : outParam Nat) : Prop
    extends Suite.SizedCipher limit where
  length_of_decrypt : ∀ {key : Block 32} {nonce : Block 24} {text ciphertext : Bytes},
    Suite.decrypt key nonce ciphertext = some text →
    ciphertext.length = text.length + 16 ∧ text.length ≤ limit

instance Suite.boundedCipher_standard :
    @Suite.BoundedCipher Suite.standard XChaCha20Poly1305.maxLength := by
  let _ := Suite.standard
  refine { Suite.sizedCipher_standard with length_of_decrypt := ?_ }
  intro key nonce text ciphertext h
  change XChaCha20Poly1305.decrypt key nonce ciphertext = some text at h
  unfold XChaCha20Poly1305.decrypt at h
  split at h
  · exact absurd h (by simp)
  · rename_i hlong
    dsimp only at h
    split at h
    · rename_i haccepted
      cases h
      simp only [Bool.and_eq_true, XChaCha20Poly1305.fits, decide_eq_true_eq] at haccepted
      rw [XChaCha20Poly1305.length_mask, XChaCha20Poly1305.maxLength]
      rw [List.length_take] at haccepted ⊢
      omega
    · exact absurd h (by simp)

/-! ## The keys of a map are some of the list's -/

namespace KeyMap

/-- What a map of listed keys holds has been listed. -/
theorem mem_of_mem_values_ofKeys {keys : List PrivateKey} {key : PrivateKey}
    (h : key ∈ (ofKeys keys).values) : key ∈ keys := by
  exact (every_ofKeys (P := fun _ key => key ∈ keys) fun _ hmem => hmem).of_mem_values h

/-- No key lies in a filed map twice. -/
theorem Filed.nodup_values [Suite] {keys : KeyMap} (h : keys.Filed) : keys.values.Nodup := by
  rw [← map_snd_toList, List.Nodup, List.pairwise_map]
  refine Std.ExtTreeMap.distinct_keys_toList.imp_of_mem ?_
  rintro ⟨pub, key⟩ ⟨pub', key'⟩ hmem hmem' hne rfl
  rw [Std.ExtTreeMap.mem_toList_iff_getElem?_eq_some] at hmem hmem'
  exact hne (Std.LawfulEqOrd.compare_eq_iff_eq.2
    ((h _ _ hmem).1.symm.trans (h _ _ hmem').1))

/-- A map takes no more room than the list it was made of. -/
theorem length_plaintext_ofKeys_le [Suite] {keys : List PrivateKey}
    (h : ∀ key ∈ keys, key.WellFormed) :
    (Envelope.plaintext (ofKeys keys).values).length ≤ (Envelope.plaintext keys).length := by
  obtain ⟨part, hperm, hsub⟩ := (filed_ofKeys h).nodup_values.subperm
    fun _ hkey => mem_of_mem_values_ofKeys hkey
  rw [Envelope.length_plaintext, Envelope.length_plaintext,
    ← (hperm.map fun key => 12 + key.secretBytes.length).sum_eq]
  exact Nat.add_le_add_left ((hsub.map _).sum_le_sum fun _ _ => Nat.zero_le _) 8

end KeyMap

namespace Envelope

variable [Suite]

/-- What is opened has been read from the records of the keys. -/
theorem exists_of_openKeys {envelope : Envelope} {key : Block 32} {keys : List PrivateKey}
    (h : envelope.openKeys key = .ok keys) : ∃ rest,
    Suite.decrypt key envelope.nonce envelope.ciphertext = some (plaintext keys ++ rest) := by
  unfold openKeys at h
  split at h
  · exact absurd h (by simp)
  · cases hcipher : Suite.decrypt key envelope.nonce envelope.ciphertext with
    | none => exact absurd h (by simp [hcipher])
    | some text =>
      rw [hcipher] at h
      dsimp only at h
      unfold keysOfPlaintext at h
      cases hdecode : (Binary.decodeList KeyRecord.decode).run text with
      | error fault => exact absurd h (by simp [hdecode])
      | ok records =>
        rw [hdecode] at h
        obtain ⟨-, rest, rfl⟩ := KeyRecord.exact.list.run_eq_ok_iff.1 hdecode
        rw [← KeyRecord.map_ofKey_of_mapM_toKey (Act.eq_ok_of_mapError h)]
        exact ⟨rest, rfl⟩

/-- Keys that are sealed anew take no more room than those of the copy that they were opened
    from. -/
theorem Seals.fileSize_le {limit : Nat} [Suite.BoundedCipher limit] {envelope envelope' : Envelope}
    {key : Block 32} {kdf : KdfHeader} {opened : List PrivateKey}
    (hopen : envelope.openKeys key = .ok opened)
    (hseals : envelope'.Seals (KeyMap.ofKeys opened) key kdf) :
    envelope'.fileSize ≤ envelope.fileSize := by
  obtain ⟨rest, hdecrypt⟩ := exists_of_openKeys hopen
  obtain ⟨hlength, -⟩ := Suite.BoundedCipher.length_of_decrypt hdecrypt
  rw [List.length_append] at hlength
  obtain ⟨nonce, ciphertext, hencrypt, rfl⟩ := hseals.eq
  have hlength' := Suite.SizedCipher.length_of_encrypt hencrypt
  have hless := KeyMap.length_plaintext_ofKeys_le (wellFormed_of_openKeys hopen)
  simp only [fileSize]
  omega

/-- The file of a sealed copy has 104 bytes, and for each key 12 more than its secret has. -/
theorem Seals.fileSize_eq {limit : Nat} [Suite.SizedCipher limit] {envelope : Envelope}
    {keys : KeyMap} {key : Block 32} {kdf : KdfHeader} (h : envelope.Seals keys key kdf) :
    envelope.fileSize =
      104 + (keys.values.map fun secret => 12 + secret.secretBytes.length).sum := by
  obtain ⟨nonce, ciphertext, hcipher, rfl⟩ := h.eq
  rw [fileSize, Suite.SizedCipher.length_of_encrypt hcipher, length_plaintext]
  omega

end Envelope

/-! ## Sessions -/

namespace SoftWallet

variable [Suite] {limit : Nat} {wallet wallet' : SoftWallet}

/-- The cipher takes the keys of the session, if there is one. -/
def IsSealable (limit : Nat) (wallet : SoftWallet) : Prop :=
  ∀ session, wallet.session? = some session →
    (Envelope.plaintext session.keys.values).length ≤ limit

theorem Turns.isSealable [Suite.BoundedCipher limit] (hturns : wallet.Turns wallet')
    (h : wallet.IsSealable limit) : wallet'.IsSealable limit := by
  cases hturns with
  | kept => exact h
  | opened henvelope hkey hopen =>
    rintro _ ⟨⟩
    obtain ⟨rest, hcipher⟩ := Envelope.exists_of_openKeys hopen
    obtain ⟨-, hlength⟩ := Suite.BoundedCipher.length_of_decrypt hcipher
    rw [List.length_append] at hlength
    exact (KeyMap.length_plaintext_ofKeys_le (Envelope.wellFormed_of_openKeys hopen)).trans
      (Nat.le_of_add_right_le hlength)
  | committed henvelope hsession hseals =>
    rintro _ ⟨⟩
    obtain ⟨nonce, ciphertext, hcipher, -⟩ := hseals.eq
    exact (Suite.SizedCipher.isSome_encrypt_iff _ _ _).1 (Option.isSome_of_eq_some hcipher)
  | resealed henvelope hsession hseals => exact h
  | _ => rintro _ ⟨⟩

/-- Whatever keys a wallet has come to hold, they can be sealed anew. -/
theorem Reachable.isSealable [Suite.BoundedCipher limit] (h : wallet.Reachable) :
    wallet.IsSealable limit :=
  h.of_turns (fun _ _ => by rintro _ ⟨⟩) fun _ _ => Turns.isSealable

/-! ## The sizes of files -/

/-- A file of the sealed copy can be loaded, or the copy was made of keys in order. -/
def IsMeasured (wallet : SoftWallet) : Prop :=
  ∀ envelope, wallet.envelope? = some envelope →
    envelope.Fits ∨ ∃ keys key, keys.Filed ∧ envelope.Seals keys key envelope.kdf

theorem isMeasured_of_seals {envelope : Envelope} {keys : KeyMap} {key : Block 32} {kdf : KdfHeader}
    (henvelope : wallet.envelope? = some envelope) (hkeys : keys.Filed)
    (hseals : envelope.Seals keys key kdf) : wallet.IsMeasured := by
  intro envelope' henvelope'
  rw [henvelope] at henvelope'
  cases henvelope'
  exact .inr ⟨keys, key, hkeys, hseals.kdf_eq.symm ▸ hseals⟩

theorem Turns.isMeasured (hturns : wallet.Turns wallet') (horderly : wallet.Orderly)
    (horderly' : wallet'.Orderly) (h : wallet.IsMeasured) : wallet'.IsMeasured := by
  cases hturns with
  | rebound hkey hseals => exact isMeasured_of_seals rfl horderly.filed_heldKeys hseals
  | committed henvelope hsession hseals =>
    exact isMeasured_of_seals rfl (horderly'.filed _ rfl) hseals
  | resealed henvelope hsession hseals =>
    exact isMeasured_of_seals rfl (horderly.filed _ hsession) hseals
  | loaded hload =>
    obtain ⟨file, -, hfits, hdecode, -⟩ := (Envelope.load_spec hload).2 _ rfl
    rintro _ ⟨⟩
    exact .inl (Envelope.fits_of_run_decode hdecode hfits)
  | _ => exact h

theorem Reachable.isMeasured (h : wallet.Reachable) : wallet.IsMeasured := by
  induction h with
  | new path cost => exact fun _ henvelope => absurd henvelope (by simp [SoftWallet.new])
  | step hreachable step world ih =>
    exact (hreachable.orderly.turns step world).isMeasured hreachable.orderly
      (hreachable.step step world).orderly ih

/-! ## Setting a password -/

/-- A new password that is not accepted leaves the wallet as it is. -/
theorem Rebinding.eq_of_error [Suite.BoundedCipher limit] {password : String} {world : World}
    {done : End Unit} (h : Rebinding password wallet world done)
    (hwallet : wallet.IsSealable limit) {error : Error} (herror : done.1 = .error error) :
    done.2.1 = wallet := by
  cases h with
  | refused | underived => rfl
  | rebound => exact absurd herror (by simp)
  | @unsealed salt key _ _ hallowed hdrew hkey hcipher =>
    cases hsession : wallet.session? with
    | none => exact lock_eq_self hsession
    | some session =>
      obtain ⟨nonce, hcipher⟩ := hcipher
      have hlength := hwallet session hsession
      rw [← show wallet.heldKeys = session.keys by rw [heldKeys, hsession]; rfl] at hlength
      have hsome := (Suite.SizedCipher.isSome_encrypt_iff key nonce _).2 hlength
      rw [hcipher] at hsome
      exact absurd hsome (by simp)

end SoftWallet

end Custody
