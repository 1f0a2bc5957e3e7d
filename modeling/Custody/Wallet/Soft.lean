import Custody.Envelope.File
import Custody.Error

set_option autoImplicit false

/-! # Soft wallets

A wallet kept in a file. At rest there is only its sealed copy; while it is unlocked a session holds
the wallet key and the private keys. Every change of the keys is sealed and saved before the session
adopts it, so that the sealed copy is always current and locking loses nothing. -/

namespace Custody

/-- What an unlocked wallet holds. -/
structure Session where
  key : Block 32
  keys : KeyMap

/-- A wallet kept in a file. -/
structure SoftWallet where
  path : Path
  /-- The cost for the next password. -/
  cost : KdfCost
  /-- The sealed copy; none before the first password. -/
  envelope? : Option Envelope
  /-- The session; none while the wallet is locked. -/
  session? : Option Session

namespace SoftWallet

variable [Suite]

/-- An operation on a wallet in its world. -/
abbrev Operation (α : Type) := Act Error (SoftWallet × World) α

/-- A wallet without a password, locked. -/
def new (path : Path) (cost : KdfCost) : SoftWallet := ⟨path, cost, none, none⟩

def isNew (wallet : SoftWallet) : Bool := wallet.envelope?.isNone

def isLocked (wallet : SoftWallet) : Bool := wallet.session?.isNone

/-- The sealed copy, which is missing before the first password. -/
def envelope (wallet : SoftWallet) : Except Error Envelope :=
  match wallet.envelope? with
  | some envelope => .ok envelope
  | none => .error (.noPasswordSet wallet.path)

/-- The session, which is missing while the wallet is locked. -/
def session (wallet : SoftWallet) : Except Error Session :=
  match wallet.session? with
  | some session => .ok session
  | none => .error (.walletLocked wallet.path.shown)

/-! ## Looking -/

/-- The key for a password under a header. -/
def deriveKey (header : KdfHeader) (password : String) : Except Error (Block 32) :=
  (header.deriveKey password).mapError fun fault => .crypto (.kdf fault)

/-- Whether a password is the one that the session was opened with. -/
def checkPassword (wallet : SoftWallet) (password : String) : Except Error Unit := do
  let session ← wallet.session
  let envelope ← wallet.envelope
  let key ← deriveKey envelope.kdf password
  if key = session.key then return else throw .badPassword

/-- The private keys under their public keys. -/
def listKeys (wallet : SoftWallet) : Except Error KeyMap := wallet.session.map (·.keys)

/-- The public keys. -/
def listPublicKeys (wallet : SoftWallet) : Except Error KeySet :=
  wallet.session.map fun session => Std.ExtTreeSet.ofList session.keys.keys

/-- The signature of a digest under a key; none if the wallet is locked or has no such key. -/
def trySign (wallet : SoftWallet) (digest : Digest) (key : PublicKey) :
    StateM Entropy (Except Error (Option Signature)) := do
  match wallet.session?.bind fun session => session.keys[key]? with
  | none => return .ok none
  | some secret =>
    match ← secret.sign digest with
    | .ok signature => return .ok (some signature)
    | .error fault => return .error (.crypto (.signing fault))

/-! ## Steps on the wallet and its world -/

/-- The wallet as it is. -/
def current : Operation SoftWallet := return (← get).1

/-- Change the wallet. -/
def update (f : SoftWallet → SoftWallet) : Operation Unit :=
  modify fun (wallet, world) => (f wallet, world)

/-- Act on the world. -/
def onWorld {α : Type} (act : Act Error World α) : Operation α :=
  act.zoom Prod.snd fun world (wallet, _) => (wallet, world)

/-- Seal keys with a fresh nonce. -/
def sealKeys (keys : KeyMap) (key : Block 32) (kdf : KdfHeader) : Operation Envelope := do
  match ← onWorld (World.drawing (Envelope.ofKeys keys.values key kdf)) with
  | .ok envelope => return envelope
  | .error fault => throw (.crypto (.envelope fault))

/-- Save a sealed copy at the wallet's path. -/
def saveEnvelope (envelope : Envelope) : Operation Unit := do
  let path := (← current).path
  onWorld ((envelope.save path).mapError fun fault => .io (.save fault))

/-- Seal and save a new set of keys; only then does the wallet adopt it. -/
def commitKeys (keys : KeyMap) : Operation Unit := do
  let wallet ← current
  let envelope ← wallet.envelope
  let session ← wallet.session
  let envelope ← sealKeys keys session.key envelope.kdf
  saveEnvelope envelope
  update fun wallet =>
    { wallet with envelope? := some envelope, session? := some { session with keys } }

/-! ## Changing the wallet -/

/-- Bind a new password. The keys of the session are sealed under it, and the wallet is locked. -/
def setPassword (password : String) : Operation Unit := do
  let wallet ← current
  if !wallet.isNew && wallet.isLocked then throw (.walletLocked wallet.path.shown)
  let salt ← onWorld (World.drawing (Entropy.draw 32))
  let header : KdfHeader := ⟨wallet.cost, salt⟩
  let key ← deriveKey header password
  -- the session ends here, whether or not its keys can be sealed
  update fun wallet => { wallet with session? := none }
  let keys := (wallet.session?.map (·.keys)).getD ∅
  let envelope ← sealKeys keys key header
  update fun wallet => { wallet with envelope? := some envelope }

/-- Open the sealed copy with its password. -/
def unlock (password : String) : Operation Unit := do
  let envelope ← (← current).envelope
  let key ← deriveKey envelope.kdf password
  match envelope.openKeys key with
  | .error _ => throw .badPassword
  | .ok keys =>
    let keys : KeyMap := Std.ExtTreeMap.ofList (keys.map fun key => (key.publicKey, key))
    update fun wallet => { wallet with session? := some ⟨key, keys⟩ }

/-- Close the session. -/
def lock (wallet : SoftWallet) : SoftWallet := { wallet with session? := none }

/-- Add a key that is not there yet. -/
def importKey (key : PrivateKey) : Operation PublicKey := do
  let session ← (← current).session
  if session.keys.contains key.publicKey then throw (.keyAlreadyExists key.publicKey)
  commitKeys (session.keys.insert key.publicKey key)
  return key.publicKey

/-- Take a key away that is there. -/
def removeKey (key : PublicKey) : Operation Unit := do
  let session ← (← current).session
  if !session.keys.contains key then throw (.keyNotFound key)
  commitKeys (session.keys.erase key)

/-- Add a fresh key. -/
def createKey (keyType : KeyType) : Operation PublicKey := do
  match ← onWorld (World.drawing (PrivateKey.generate keyType)) with
  | some key => importKey key
  | none => throw (.crypto .noKeyPair)

/-! ## Files -/

/-- Take the sealed copy from the wallet's file; the wallet is locked then. -/
def load : Operation Unit := do
  let path := (← current).path
  let envelope ← onWorld ((Envelope.load path).mapError fun fault =>
    .walletFileUnreadable path fault)
  update fun wallet => { wallet with session? := none, envelope? := some envelope }

/-- Save the wallet; an unlocked wallet is sealed anew first. -/
def save : Operation Unit := do
  let wallet ← current
  match wallet.session? with
  | some session =>
    let envelope ← wallet.envelope
    let envelope ← sealKeys session.keys session.key envelope.kdf
    update fun wallet => { wallet with envelope? := some envelope }
  | none => pure ()
  saveEnvelope (← (← current).envelope)

end SoftWallet

end Custody
