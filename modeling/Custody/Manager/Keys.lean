import Custody.Manager.Basic
import Custody.Text.UpperCase
import Custody.Transaction

set_option autoImplicit false

/-! # Keys and signatures of a manager

Every operation looks at the timeout first. What concerns one wallet asks only that wallet, and only
after it has said that it is unlocked; what concerns all of them asks the unlocked ones in
registration order. -/

namespace Custody.Manager

variable [Suite] {W : Type} [Backend W]

/-! ## The keys of one wallet -/

/-- All keys of a wallet, for its password. -/
def listKeys (name password : String) : Operation W KeyMap := do
  checkTimeout
  let entry ← unlockedWallet name
  ask entry (.checkPassword password) (Backend.checkPassword entry.2 password)
  ask entry .listKeys (Backend.listKeys entry.2)

/-- Import a private key into a wallet. -/
def importKey (name key : String) : Operation W PublicKey := do
  checkTimeout
  let entry ← unlockedWallet name
  let key ← Act.ofExcept ((PrivateKey.ofText key).mapError .invalidKey)
  request entry (.importKey key) (Backend.importKey key)

/-- Remove a key from a wallet, for its password. -/
def removeKey (name password key : String) : Operation W Unit := do
  checkTimeout
  let entry ← unlockedWallet name
  ask entry (.checkPassword password) (Backend.checkPassword entry.2 password)
  let key ← Act.ofExcept ((PublicKey.ofText key).mapError .invalidKey)
  request entry (.removeKey key) (Backend.removeKey key)

/-- The scheme that a selector names in upper case. -/
def selectKeyType (selector : String) : Except Error KeyType :=
  let text := Text.upperCase selector
  match KeyType.ofText? text with
  | some keyType => .ok keyType
  | none => .error (.unsupportedKeyType text)

/-- Create a key in a wallet, of a scheme that is named in any case. -/
def createKey (name selector : String) : Operation W PublicKey := do
  checkTimeout
  let entry ← unlockedWallet name
  let keyType ← Act.ofExcept (selectKeyType selector)
  request entry (.createKey keyType) (Backend.createKey keyType)

/-! ## The keys of all wallets -/

/-- The public keys of the unlocked wallets among some entries; none if all of them are locked. -/
def publicKeysOf : List (WalletName × W) → Option KeySet → Operation W (Option KeySet)
  | [], found => return found
  | entry :: rest, found => do
    if ← askLocked entry then publicKeysOf rest found
    else
      let keys ← ask entry .listPublicKeys (Backend.listPublicKeys entry.2)
      publicKeysOf rest (some ((found.getD ∅).insertMany keys.toList))

/-- All public keys of unlocked wallets. -/
def publicKeys : Operation W KeySet := do
  checkTimeout
  let wallets := (← get).manager.wallets
  if wallets.isEmpty then throw .noWalletsAvailable
  match ← publicKeysOf wallets none with
  | some keys => return keys
  | none => throw .allWalletsLocked

/-- The signatures that one wallet gives for some of its keys, added to those found before. -/
def signaturesFor (entry : WalletName × W) (digest : Digest) :
    List PublicKey → SignatureSet → Operation W SignatureSet
  | [], found => return found
  | key :: rest, found => do
    match ← askSignature entry digest key with
    | some signature => signaturesFor entry digest rest (found.insert signature)
    | none => signaturesFor entry digest rest found

/-- The signatures that the unlocked wallets among some entries give with all their keys; none if
    all of them are locked. -/
def signaturesOf (digest : Digest) :
    List (WalletName × W) → Option SignatureSet → Operation W (Option SignatureSet)
  | [], found => return found
  | entry :: rest, found => do
    if ← askLocked entry then signaturesOf digest rest found
    else
      let keys ← ask entry .listPublicKeys (Backend.listPublicKeys entry.2)
      let found ← signaturesFor entry digest keys.toList (found.getD ∅)
      signaturesOf digest rest (some found)

/-- The signatures of a chain's id under all keys of unlocked wallets. -/
def mySignatures (chain : ChainId) : Operation W SignatureSet := do
  checkTimeout
  let wallets := (← get).manager.wallets
  if wallets.isEmpty then throw .noWalletsAvailable
  match ← signaturesOf chain.digest wallets none with
  | some signatures => return signatures
  | none => throw .allWalletsLocked

/-! ## Signing -/

/-- The first signature that an unlocked wallet among some entries gives. -/
def firstSignature (digest : Digest) (key : PublicKey) :
    List (WalletName × W) → Operation W (Option Signature)
  | [] => return none
  | entry :: rest => do
    if ← askLocked entry then firstSignature digest key rest
    else
      match ← askSignature entry digest key with
      | some signature => return some signature
      | none => firstSignature digest key rest

/-- The signature of a digest under a key, by the first wallet that has the key. -/
def signatureOf (digest : Digest) (key : PublicKey) : Operation W Signature := do
  match ← firstSignature digest key (← get).manager.wallets with
  | some signature => return signature
  | none => throw (.missingPublicKey key)

/-- The signature of a digest under a key. -/
def signDigest (digest : Digest) (key : PublicKey) : Operation W Signature := do
  checkTimeout
  signatureOf digest key

/-- The transaction with a signature added for each key, in the order of the keys. -/
def signTransaction (tx : SignedTransaction) (keys : KeySet) (chain : ChainId) :
    Operation W SignedTransaction := do
  checkTimeout
  let signatures ← keys.toList.mapM (signatureOf (tx.signingDigest chain))
  return { tx with signatures := tx.signatures ++ signatures }

end Custody.Manager
