import Custody.Wallet.Soft

set_option autoImplicit false

/-! # What a manager asks of a wallet

A manager keeps wallets of any kind behind this interface: soft wallets and foreign keystores alike.
Nothing is promised about the answers; whether a wallet is unlocked is for the manager to ask before
it asks for anything else. -/

namespace Custody

/-- The kinds of requests. -/
inductive RequestKind
  | isLocked
  | lock
  | unlock
  | setPassword
  | checkPassword
  | listKeys
  | listPublicKeys
  | importKey
  | removeKey
  | createKey (keyType : KeyType)
  | trySign
  | load
  | save
  deriving DecidableEq, Repr

/-- A kind of wallet. What only looks at a wallet leaves it as it is; a signature may take random
    bytes; everything else may change the wallet and the world. -/
class Backend (W : Type) where
  isLocked : W → Bool
  lock : W → W
  checkPassword : W → String → Except Error Unit
  listKeys : W → Except Error KeyMap
  listPublicKeys : W → Except Error KeySet
  /-- The signature of a digest under a key; none if the wallet has no such key. -/
  trySign : W → Digest → PublicKey → StateM Entropy (Except Error (Option Signature))
  setPassword : String → Act Error (W × World) Unit
  unlock : String → Act Error (W × World) Unit
  importKey : PrivateKey → Act Error (W × World) PublicKey
  removeKey : PublicKey → Act Error (W × World) Unit
  createKey : KeyType → Act Error (W × World) PublicKey
  load : Act Error (W × World) Unit
  save : Act Error (W × World) Unit

/-- Kinds of wallet among which there are soft wallets. -/
class SoftBackend (W : Type) extends Backend W where
  ofSoft : SoftWallet → W

namespace Backend

instance ofSoftWallet [Suite] : SoftBackend SoftWallet where
  isLocked := SoftWallet.isLocked
  lock := SoftWallet.lock
  checkPassword := SoftWallet.checkPassword
  listKeys := SoftWallet.listKeys
  listPublicKeys := SoftWallet.listPublicKeys
  trySign := SoftWallet.trySign
  setPassword := SoftWallet.setPassword
  unlock := SoftWallet.unlock
  importKey := SoftWallet.importKey
  removeKey := SoftWallet.removeKey
  createKey := SoftWallet.createKey
  load := SoftWallet.load
  save := SoftWallet.save
  ofSoft := id

/-! ## Two kinds side by side -/

variable {A B : Type}

/-- An operation on either kind, whichever the wallet is. -/
def either {α : Type} (left : Act Error (A × World) α) (right : Act Error (B × World) α) :
    Act Error ((A ⊕ B) × World) α :=
  ExceptT.mk fun (wallet, world) =>
    match wallet with
    | .inl a =>
      let (result, a, world) := left.outcome (a, world)
      (result, .inl a, world)
    | .inr b =>
      let (result, b, world) := right.outcome (b, world)
      (result, .inr b, world)

instance ofSum [Backend A] [Backend B] : Backend (A ⊕ B) where
  isLocked := Sum.elim isLocked isLocked
  lock := Sum.map lock lock
  checkPassword := Sum.elim checkPassword checkPassword
  listKeys := Sum.elim listKeys listKeys
  listPublicKeys := Sum.elim listPublicKeys listPublicKeys
  trySign := Sum.elim trySign trySign
  setPassword password := either (setPassword password) (setPassword password)
  unlock password := either (unlock password) (unlock password)
  importKey key := either (importKey key) (importKey key)
  removeKey key := either (removeKey key) (removeKey key)
  createKey keyType := either (createKey keyType) (createKey keyType)
  load := either load load
  save := either save save

instance ofSoftSum [SoftBackend A] [Backend B] : SoftBackend (A ⊕ B) where
  ofSoft wallet := .inl (SoftBackend.ofSoft wallet)

end Backend

end Custody
