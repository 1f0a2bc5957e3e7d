import Custody.Cipher.ChaCha20
import Custody.Cipher.Poly1305

set_option autoImplicit false

/-! # XChaCha20-Poly1305

Authenticated encryption under a key of 32 bytes and a nonce of 24, without associated data. The
main statement is `decrypt_encrypt`: what was encrypted is decrypted again under the same key
and nonce. -/

namespace Custody.XChaCha20Poly1305

/-- The key and short nonce that a long nonce stands for. -/
def derived (key : Block 32) (nonce : Block 24) : Block 32 × Block 12 :=
  (ChaCha20.subkey key (Block.fit 16 (nonce.val.take 16)),
    Block.fit 12 (List.replicate 4 0 ++ nonce.val.drop 16))

/-- Zero bytes up to the next multiple of 16. -/
def padding (length : Nat) : Bytes := List.replicate ((16 - length % 16) % 16) 0

/-- The tag of a ciphertext: it covers the ciphertext, its padding, and the lengths of the
    (absent) associated data and of the ciphertext. -/
def tag (key : Block 32) (nonce : Block 12) (ciphertext : Bytes) : Block 16 :=
  let oneTimeKey := Block.fit 32 ((ChaCha20.block key nonce 0).val.take 32)
  Poly1305.tag oneTimeKey
    (ciphertext ++ padding ciphertext.length ++ Bytes.ofNat 8 0 ++ Bytes.ofNat 8 ciphertext.length)

/-- Add the keystream to a text. -/
def mask (key : Block 32) (nonce : Block 12) (text : Bytes) : Bytes :=
  Bytes.xor text (ChaCha20.keystream key nonce 1 text.length)

/-- Whether a text is short enough for the block counter. -/
def fits (text : Bytes) : Bool := text.length / 64 < 0xffffffff

/-- The ciphertext followed by its tag; nothing if the text is too long for the cipher. -/
def encrypt (key : Block 32) (nonce : Block 24) (text : Bytes) : Option Bytes :=
  if fits text then
    let (key, nonce) := derived key nonce
    let ciphertext := mask key nonce text
    some (ciphertext ++ (tag key nonce ciphertext).val)
  else none

/-- The text of a ciphertext with its tag; nothing if the tag is not the right one. -/
def decrypt (key : Block 32) (nonce : Block 24) (sealed : Bytes) : Option Bytes :=
  if sealed.length < 16 then none
  else
    let ciphertext := sealed.take (sealed.length - 16)
    let (key, nonce) := derived key nonce
    if fits ciphertext && (tag key nonce ciphertext).val == sealed.drop ciphertext.length then
      some (mask key nonce ciphertext)
    else none

@[simp] theorem length_mask (key : Block 32) (nonce : Block 12) (text : Bytes) :
    (mask key nonce text).length = text.length := by
  have := ChaCha20.le_length_keystream key nonce 1 text.length
  simp only [mask, Bytes.xor, List.length_zipWith]
  omega

theorem mask_mask (key : Block 32) (nonce : Block 12) (text : Bytes) :
    mask key nonce (mask key nonce text) = text := by
  rw [mask, length_mask, mask]
  exact Bytes.xor_xor_cancel _ _ (ChaCha20.le_length_keystream key nonce 1 text.length)

/-- What was encrypted is decrypted again under the same key and nonce. -/
theorem decrypt_encrypt {key : Block 32} {nonce : Block 24} {text sealed : Bytes}
    (h : encrypt key nonce text = some sealed) : decrypt key nonce sealed = some text := by
  unfold encrypt at h
  split at h
  · rename_i hfits
    simp only [Option.some.injEq] at h
    subst h
    have htag := (tag (derived key nonce).1 (derived key nonce).2
      (mask (derived key nonce).1 (derived key nonce).2 text)).property
    have hlen : ¬ (text.length + 16 < 16) := by omega
    simp only [decrypt, List.length_append, length_mask, htag, hlen, if_false,
      Nat.add_sub_cancel]
    rw [List.take_left' (length_mask _ _ _), length_mask, List.drop_left' (length_mask _ _ _)]
    have hfits' : fits (mask (derived key nonce).1 (derived key nonce).2 text) = true := by
      simpa [fits] using hfits
    simp only [hfits', beq_self_eq_true, Bool.and_self, if_true, mask_mask]
  · simp at h

/-- Encryption adds the 16 bytes of the tag. -/
theorem length_of_encrypt {key : Block 32} {nonce : Block 24} {text sealed : Bytes}
    (h : encrypt key nonce text = some sealed) : sealed.length = text.length + 16 := by
  unfold encrypt at h
  split at h
  · simp only [Option.some.injEq] at h
    subst h
    rw [List.length_append, length_mask, (tag _ _ _).property]
  · simp at h

end Custody.XChaCha20Poly1305
