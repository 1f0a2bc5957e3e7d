import Custody.Proofs.Layout
import Custody.Proofs.Manager.Signing

set_option autoImplicit false

/-! # What a signature binds

A signature covers the id of a chain and the layout of a transaction's body, joined without a
separator. The id has a fixed length and the layout is exact, so the bytes determine both
(`SignedTransaction.signedBytes_inj`), and whoever has one digest for two chains or two bodies has a
collision at hand. The signatures that are attached are not covered, so they stay valid when more
are added (`SignedTransaction.Countersigned`). The main result is
`SignedTransaction.digest_binds`. -/

namespace Custody

/-- Two different byte strings with the same digest. -/
def Collision (digest : Bytes → Digest) (bytes₁ bytes₂ : Bytes) : Prop :=
  bytes₁ ≠ bytes₂ ∧ digest bytes₁ = digest bytes₂

/-- Byte strings with the same digest are equal, or they are a collision. -/
theorem Collision.eq_or {digest : Bytes → Digest} {bytes₁ bytes₂ : Bytes}
    (h : digest bytes₁ = digest bytes₂) : bytes₁ = bytes₂ ∨ Collision digest bytes₁ bytes₂ := by
  by_cases heq : bytes₁ = bytes₂
  · exact .inl heq
  · exact .inr ⟨heq, h⟩

theorem Transaction.encode_inj {tx₁ tx₂ : Transaction} (h₁ : tx₁.Sized) (h₂ : tx₂.Sized) :
    tx₁.encode = tx₂.encode ↔ tx₁ = tx₂ := by
  constructor
  · intro h
    exact (exact.eq_of_append_eq h₁ h₂ (congrArg (· ++ []) h)).1
  · rintro rfl
    rfl

namespace SignedTransaction

variable {tx tx₁ tx₂ : SignedTransaction} {chain chain₁ chain₂ : ChainId}

/-! ## The bytes that are signed -/

/-- The bytes that are signed determine the chain and the body. -/
theorem signedBytes_inj (h₁ : tx₁.body.Sized) (h₂ : tx₂.body.Sized) :
    tx₁.signedBytes chain₁ = tx₂.signedBytes chain₂ ↔ chain₁ = chain₂ ∧ tx₁.body = tx₂.body := by
  constructor
  · intro h
    -- both ids have 32 bytes, so the boundary after them cannot shift
    obtain ⟨hchain, hbody⟩ := List.append_inj h
      (chain₁.digest.property.trans chain₂.digest.property.symm)
    refine ⟨?_, (Transaction.encode_inj h₁ h₂).1 hbody⟩
    cases chain₁
    cases chain₂
    exact congrArg ChainId.mk (Subtype.ext hchain)
  · rintro ⟨rfl, hbody⟩
    unfold signedBytes
    rw [hbody]

section Suite

variable [Suite]

theorem signingDigest_eq (tx : SignedTransaction) (chain : ChainId) :
    tx.signingDigest chain = Suite.sha256 (tx.signedBytes chain) := by
  unfold signingDigest digestOfParts signedBytes
  simp

theorem signingDigest_congr (h : tx₁.body = tx₂.body) (chain : ChainId) :
    tx₁.signingDigest chain = tx₂.signingDigest chain := by
  unfold signingDigest
  rw [h]

/-! ## Adding signatures -/

/-- A transaction is handed to managers, of wallets of any kind, one after the other; each answers
    with what is handed to the next, which may ask for other keys and another chain. -/
inductive Countersigned (tx : SignedTransaction) : SignedTransaction → Prop
  | refl : Countersigned tx tx
  | sign {W : Type} [Backend W] {scene scene' : Scene W} {keys : KeySet} {chain : ChainId}
    {tx₁ tx₂ : SignedTransaction} (h : Countersigned tx tx₁)
    (hsign : (Manager.signTransaction tx₁ keys chain).outcome scene = (.ok tx₂, scene')) :
    Countersigned tx tx₂

/-- Signing adds signatures after those that are attached, and does nothing else. -/
theorem exists_of_signTransaction {W : Type} [Backend W] {scene scene' : Scene W} {keys : KeySet}
    {chain : ChainId}
    (h : (Manager.signTransaction tx₁ keys chain).outcome scene = (.ok tx₂, scene')) :
    ∃ signatures, tx₂ = { tx₁ with signatures := tx₁.signatures ++ signatures } := by
  have hlooks := Manager.looks_signTransaction scene tx₁ keys chain (fun _ _ => True)
    fun key _ _ => (Manager.sees_signatureOf _ key).mono fun _ _ => trivial
  obtain ⟨signatures, hsigned, -⟩ := hlooks.2 tx₂ (congrArg Prod.fst h)
  exact ⟨signatures, hsigned⟩

/-- What a manager answers is signed further, also where it refuses and nothing changes. -/
theorem Countersigned.answer (h : tx.Countersigned tx₁) {W : Type} [Backend W] (scene : Scene W)
    (keys : KeySet) (chain : ChainId) : tx.Countersigned
      (((Manager.signTransaction tx₁ keys chain).outcome scene).1.toOption.getD tx₁) := by
  rcases hsign : (Manager.signTransaction tx₁ keys chain).outcome scene
    with ⟨error | signed, scene'⟩
  · exact h
  · exact h.sign hsign

theorem Countersigned.body_eq (h : tx.Countersigned tx₁) : tx₁.body = tx.body := by
  induction h with
  | refl => rfl
  | sign _ hsign ih =>
    obtain ⟨signatures, rfl⟩ := exists_of_signTransaction hsign
    exact ih

theorem Countersigned.keeps_signatures (h : tx.Countersigned tx₁) :
    tx.signatures <+: tx₁.signatures := by
  induction h with
  | refl => exact List.prefix_rfl
  | sign _ hsign ih =>
    obtain ⟨signatures, rfl⟩ := exists_of_signTransaction hsign
    exact ih.trans (List.prefix_append _ _)

/-- A transaction that is signed under a key stays so when it is signed further. -/
theorem Countersigned.isSignedBy (h : tx.Countersigned tx₁) {key : PublicKey}
    (hsigned : tx.isSignedBy chain key = true) : tx₁.isSignedBy chain key = true := by
  obtain ⟨signature, hmem, hverify⟩ := List.any_eq_true.1 hsigned
  refine List.any_eq_true.2 ⟨signature, h.keeps_signatures.subset hmem, ?_⟩
  rw [signingDigest_congr h.body_eq]
  exact hverify

/-! ## What is bound -/

/-- The digest that is signed is that of bytes which are the same exactly for the same chain and the
    same body, so it is shared by two chains or two bodies only through a collision, and so is the
    digest that names a transaction. Whatever signatures are attached makes no difference, and those
    that are valid stay so when the transaction is signed further. -/
theorem digest_binds (chain₁ chain₂ : ChainId) (tx₁ tx₂ : SignedTransaction)
    (h₁ : tx₁.body.Sized) (h₂ : tx₂.body.Sized) :
    tx₁.signingDigest chain₁ = Suite.sha256 (tx₁.signedBytes chain₁) ∧
    (tx₁.signedBytes chain₁ = tx₂.signedBytes chain₂ ↔
      chain₁ = chain₂ ∧ tx₁.body = tx₂.body) ∧
    (tx₁.signingDigest chain₁ = tx₂.signingDigest chain₂ →
      ¬(chain₁ = chain₂ ∧ tx₁.body = tx₂.body) →
      Collision Suite.sha256 (tx₁.signedBytes chain₁) (tx₂.signedBytes chain₂)) ∧
    (tx₁.body.id = tx₂.body.id → tx₁.body ≠ tx₂.body →
      Collision Suite.shake256 tx₁.body.encode tx₂.body.encode) ∧
    (∀ signatures, SignedTransaction.signingDigest { tx₁ with signatures } chain₁ =
      tx₁.signingDigest chain₁) ∧
    (∀ tx key, tx₁.Countersigned tx → tx.signingDigest chain₁ = tx₁.signingDigest chain₁ ∧
      tx₁.signatures <+: tx.signatures ∧
      (tx₁.isSignedBy chain₁ key = true → tx.isSignedBy chain₁ key = true)) := by
  refine ⟨signingDigest_eq tx₁ chain₁, signedBytes_inj h₁ h₂, ?_, ?_, fun _ => rfl, ?_⟩
  · intro hdigest hne
    rw [signingDigest_eq, signingDigest_eq] at hdigest
    exact (Collision.eq_or hdigest).resolve_left fun heq => hne ((signedBytes_inj h₁ h₂).1 heq)
  · intro hid hne
    exact (Collision.eq_or hid).resolve_left fun heq => hne ((Transaction.encode_inj h₁ h₂).1 heq)
  · intro tx key hcountersigned
    exact ⟨signingDigest_congr hcountersigned.body_eq chain₁, hcountersigned.keeps_signatures,
      hcountersigned.isSignedBy⟩

end Suite

/-! ## A byte that moves -/

section Shifted

local instance digestPrimitives : Suite := Suite.plain

/-- A transaction of one action. -/
def oneAction (name : String) (data : Bytes) : SignedTransaction :=
  ⟨⟨0, 0, [⟨name, data⟩], 0, 0⟩, []⟩

theorem sized_oneAction {name : String} {data : Bytes}
    (hname : (Utf8.encode name).length < 2 ^ 64) (hdata : data.length < 2 ^ 64) :
    (oneAction name data).body.Sized :=
  ⟨Nat.one_lt_two_pow (by decide), List.forall_mem_singleton.2 ⟨hname, hdata⟩⟩

/-- What the manager with a fresh key answers when it is asked to sign. -/
def signedFreshly (tx : SignedTransaction) : SignedTransaction :=
  (((Manager.signTransaction tx (.ofList [Manager.freshKey.publicKey]) ⟨default⟩).outcome
    ⟨Manager.withFreshKey, .blank, []⟩).1.toOption).getD tx

theorem countersigned_signedFreshly (tx : SignedTransaction) :
    tx.Countersigned (signedFreshly tx) :=
  Countersigned.refl.answer _ _ _

theorem isSignedBy_signedFreshly : (signedFreshly (oneAction "ab" [99])).isSignedBy ⟨default⟩
    Manager.freshKey.publicKey = true := by
  decide +kernel

/-- A byte that moves from the name of an action into its data changes what is signed, and a
    transaction that was signed once is signed still when it has been signed again. -/
theorem digest_binds_of_shifted :
    (signedFreshly (oneAction "ab" [99])).signedBytes ⟨default⟩ ≠
      (oneAction "a" [98, 99]).signedBytes ⟨default⟩ ∧
    (signedFreshly (signedFreshly (oneAction "ab" [99]))).isSignedBy ⟨default⟩
      Manager.freshKey.publicKey = true := by
  have hbody := (countersigned_signedFreshly (oneAction "ab" [99])).body_eq
  have hsized : (signedFreshly (oneAction "ab" [99])).body.Sized := by
    rw [hbody]
    exact sized_oneAction (by decide +kernel) (by decide)
  have hsized' : (oneAction "a" [98, 99]).body.Sized :=
    sized_oneAction (by decide +kernel) (by decide)
  obtain ⟨-, hbytes, -, -, -, hcountersigned⟩ :=
    digest_binds ⟨default⟩ ⟨default⟩ (signedFreshly (oneAction "ab" [99])) (oneAction "a" [98, 99])
      hsized hsized'
  refine ⟨?_, ?_⟩
  · intro heq
    exact absurd (hbody.symm.trans (hbytes.1 heq).2) (by decide)
  · exact (hcountersigned _ _ (countersigned_signedFreshly _)).2.2 isSignedBy_signedFreshly

end Shifted

end SignedTransaction

end Custody
