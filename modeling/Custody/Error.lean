import Custody.Envelope.Basic
import Custody.Key.Text

set_option autoImplicit false

/-! # What operations fail with

Each error names its cause; `Error.message` is its wording. -/

namespace Custody

/-- Why a directory cannot be locked. -/
inductive LockFault
  | marker (error : IoError)
  | contended (error : IoError)
  | replaced
  | heldHere
  deriving DecidableEq, Repr

def LockFault.message : LockFault → String
  | .marker error => "failed to open lock file: " ++ error.message
  | .contended error => error.message
  | .replaced => "lock marker was replaced while locking"
  | .heldHere => "directory lock is held by this manager"

/-- Why keys cannot be derived, sealed, made or used. -/
inductive CryptoFault
  | kdf (fault : KdfFault)
  | envelope (fault : EnvelopeFault)
  | signing (fault : SigningFault)
  | noKeyPair
  /-- What a foreign keystore reports. -/
  | device (report : String)
  deriving DecidableEq, Repr

def CryptoFault.message : CryptoFault → String
  | .kdf fault => fault.message
  | .envelope fault => fault.message
  | .signing fault => fault.message
  | .noKeyPair => "no Falcon-512 key pair found"
  | .device report => report

/-- Why a file operation failed. -/
inductive IoFault
  | system (error : IoError)
  | save (fault : EnvelopeFault)
  deriving DecidableEq, Repr

def IoFault.message : IoFault → String
  | .system error => error.message
  | .save fault => fault.message

/-- Why an operation on wallets failed. -/
inductive Error
  | invalidName (name : String)
  | walletAlreadyExists (name : String) (path : Path)
  | walletNonexistent (name : String)
  | walletLocked (name : String)
  | walletAlreadyUnlocked (name : String)
  | badPassword
  | missingPublicKey (key : PublicKey)
  | noWalletsAvailable
  | allWalletsLocked
  | timeoutOverflow (duration : UInt64)
  | directoryLockUnavailable (marker : Path) (fault : LockFault)
  | walletFileUnreadable (path : Path) (fault : EnvelopeFault)
  | duplicateWalletRegistration (name : String)
  | noPasswordSet (path : Path)
  | keyAlreadyExists (key : PublicKey)
  | keyNotFound (key : PublicKey)
  | invalidKey (fault : KeyFault)
  | unsupportedKeyType (text : String)
  | platformWalletUnavailable (platform : String)
  | crypto (fault : CryptoFault)
  | serialization (fault : Binary.Fault)
  | io (fault : IoFault)
  deriving DecidableEq, Repr

def Error.message : Error → String
  | .invalidName name =>
    "Invalid wallet name, path not allowed in wallet name: " ++ Text.quote name
  | .walletAlreadyExists name path =>
    "Wallet with name '" ++ name ++ "' already exists at " ++ path.quoted
  | .walletNonexistent name => "Wallet not found: " ++ name
  | .walletLocked name => "Wallet is locked: " ++ name
  | .walletAlreadyUnlocked name => "Wallet is already unlocked: " ++ name
  | .badPassword => "Invalid password for wallet"
  | .missingPublicKey key => "Public key not found in unlocked wallets: " ++ key.toText
  | .noWalletsAvailable => "You don't have any wallet"
  | .allWalletsLocked => "You don't have any unlocked wallet"
  | .timeoutOverflow duration =>
    "Overflow on unlock timeout: " ++ toString duration ++ "s from now"
  | .directoryLockUnavailable marker fault =>
    "Failed to lock wallet directory at " ++ marker.quoted ++ " (" ++ fault.message
      ++ "); is another wallet manager running?"
  | .walletFileUnreadable path fault =>
    "Unable to read wallet file " ++ path.quoted ++ ": " ++ fault.message
  | .duplicateWalletRegistration name =>
    "Tried to register wallet name that already exists: " ++ name
  | .noPasswordSet path => "Wallet has no password set: " ++ path.quoted
  | .keyAlreadyExists key => "Key already in wallet: " ++ key.toText
  | .keyNotFound key => "Key not in wallet: " ++ key.toText
  | .invalidKey fault => "Invalid key: " ++ fault.message
  | .unsupportedKeyType text => "Unsupported key type: " ++ Text.quote text
  | .platformWalletUnavailable platform =>
    "Platform wallet unavailable: no hardware keystore backend for " ++ platform
  | .crypto fault => "Crypto error: " ++ fault.message
  | .serialization fault => "Serialization error: " ++ fault.message
  | .io fault => "IO error: " ++ fault.message

end Custody
