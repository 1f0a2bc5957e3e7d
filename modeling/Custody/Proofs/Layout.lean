import Custody.Envelope.Basic
import Custody.Proofs.Binary
import Custody.Transaction

set_option autoImplicit false

/-! # The layouts are exact

Keys, signatures, transactions, key records and sealed copies are each read exactly as they are
written. `Sized` says of a value what its layout asks for, that every length in it fits in eight
bytes. Whatever is read is sized (`Binary.Exact`), and so is whatever a memory can hold. The main
result, `layouts_faithful`, is about the six formats that leave the program. -/

namespace Custody

open Binary (Exact Faithful)

/-! ## Keys and signatures -/

theorem KeyType.exact : Exact encode decode fun _ => True := by
  intro bytes keyType rest
  unfold decode
  rw [Binary.exact_uint32.bind_eq_ok]
  constructor
  · rintro ⟨tag, rest', -, rfl, hread⟩
    dsimp only at hread
    split at hread
    · rename_i htag
      cases hread
      exact ⟨trivial, by rw [htag]; rfl⟩
    · split at hread
      · rename_i htag
        cases hread
        exact ⟨trivial, by rw [htag]; rfl⟩
      · exact absurd hread (by simp [throw, throwThe, MonadExceptOf.throw])
  · rintro ⟨-, rfl⟩
    refine ⟨keyType.tag, rest, trivial, rfl, ?_⟩
    cases keyType <;> rfl

namespace PublicKey

def Sized (key : PublicKey) : Prop := key.bytes.length < 2 ^ 64

theorem exact : Exact encode decode Sized :=
  KeyType.exact.pair Binary.exact_bytes mk keyType bytes (fun _ _ => ⟨rfl, rfl⟩) (fun _ => rfl)
    fun _ => (iff_of_eq (true_and _)).symm

end PublicKey

namespace Signature

def Sized (signature : Signature) : Prop := signature.bytes.length < 2 ^ 64

theorem exact : Exact encode decode Sized :=
  KeyType.exact.pair Binary.exact_bytes mk keyType bytes (fun _ _ => ⟨rfl, rfl⟩) (fun _ => rfl)
    fun _ => (iff_of_eq (true_and _)).symm

end Signature

/-! ## Transactions -/

namespace Action

def Sized (action : Action) : Prop :=
  (Utf8.encode action.name).length < 2 ^ 64 ∧ action.data.length < 2 ^ 64

theorem exact : Exact encode decode Sized :=
  Binary.exact_text.pair Binary.exact_bytes mk name data (fun _ _ => ⟨rfl, rfl⟩) (fun _ => rfl)
    fun _ => Iff.rfl

end Action

namespace Transaction

def Sized (tx : Transaction) : Prop :=
  tx.actions.length < 2 ^ 64 ∧ ∀ action ∈ tx.actions, action.Sized

theorem exact : Exact encode decode Sized := by
  intro bytes tx rest
  simp only [decode, Binary.exact_uint64.bind_eq_ok, Binary.exact_uint32.bind_eq_ok,
    Action.exact.list.bind_eq_ok, encode, List.append_assoc]
  constructor
  · rintro ⟨expiration, _, -, rfl, refBlock, _, -, rfl, actions, _, hactions, rfl, fee, _, -, rfl,
      nonce, _, -, rfl, hpure⟩
    cases hpure
    exact ⟨hactions, rfl⟩
  · rintro ⟨hactions, rfl⟩
    exact ⟨_, _, trivial, rfl, _, _, trivial, rfl, _, _, hactions, rfl, _, _, trivial, rfl,
      _, _, trivial, rfl, rfl⟩

end Transaction

namespace SignedTransaction

def Sized (tx : SignedTransaction) : Prop :=
  tx.body.Sized ∧ tx.signatures.length < 2 ^ 64 ∧ ∀ signature ∈ tx.signatures, signature.Sized

theorem exact : Exact encode decode Sized :=
  Transaction.exact.pair Signature.exact.list mk body signatures (fun _ _ => ⟨rfl, rfl⟩)
    (fun _ => rfl) fun _ => Iff.rfl

end SignedTransaction

/-! ## Wallets at rest -/

namespace KeyRecord

def Sized (record : KeyRecord) : Prop := record.secret.length < 2 ^ 64

theorem exact : Exact encode decode Sized :=
  KeyType.exact.pair Binary.exact_bytes mk keyType secret (fun _ _ => ⟨rfl, rfl⟩) (fun _ => rfl)
    fun _ => (iff_of_eq (true_and _)).symm

end KeyRecord

namespace Envelope

def Sized (envelope : Envelope) : Prop := envelope.ciphertext.length < 2 ^ 64

theorem exact : Exact encode decode Sized := by
  intro bytes envelope rest
  simp only [decode, Binary.exact_uint32.bind_eq_ok, (Binary.exact_block _).bind_eq_ok,
    Binary.exact_bytes.bind_eq_ok, encode, List.append_assoc]
  constructor
  · rintro ⟨version, _, -, rfl, memory, _, -, rfl, passes, _, -, rfl, lanes, _, -, rfl,
      salt, _, -, rfl, nonce, _, -, rfl, ciphertext, _, hciphertext, rfl, hpure⟩
    cases hpure
    exact ⟨hciphertext, rfl⟩
  · rintro ⟨hciphertext, rfl⟩
    exact ⟨_, _, trivial, rfl, _, _, trivial, rfl, _, _, trivial, rfl, _, _, trivial, rfl,
      _, _, trivial, rfl, _, _, trivial, rfl, _, _, hciphertext, rfl, rfl⟩

end Envelope

/-! ## All formats -/

/-- Each format reads exactly what it writes, whatever follows it, and refuses everything else. -/
theorem layouts_faithful :
    Faithful Transaction.encode Transaction.decode Transaction.Sized ∧
    Faithful SignedTransaction.encode SignedTransaction.decode SignedTransaction.Sized ∧
    Faithful PublicKey.encode PublicKey.decode PublicKey.Sized ∧
    Faithful Signature.encode Signature.decode Signature.Sized ∧
    Faithful Envelope.encode Envelope.decode Envelope.Sized ∧
    Faithful (Binary.encodeList KeyRecord.encode) (Binary.decodeList KeyRecord.decode)
      (fun records => records.length < 2 ^ 64 ∧ ∀ record ∈ records, record.Sized) :=
  ⟨Transaction.exact.faithful, SignedTransaction.exact.faithful, PublicKey.exact.faithful,
    Signature.exact.faithful, Envelope.exact.faithful, KeyRecord.exact.list.faithful⟩

end Custody
