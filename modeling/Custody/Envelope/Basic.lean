import Custody.Disk.Basic
import Custody.Kdf
import Custody.Key.Private

set_option autoImplicit false

/-! # Sealed wallets

The private keys of a wallet as they are kept at rest: a list of key records, encrypted under the
wallet's key, beside what the key is derived from. What is sealed under a key opens under it to the
same keys in the same order. -/

namespace Custody

/-- Why a sealed wallet cannot be made, opened, saved or loaded. -/
inductive EnvelopeFault
  | kdf (fault : KdfFault)
  | encryption
  | version (found : UInt32)
  | decryption
  | keyRecords (fault : Binary.Fault)
  | keyRecord (fault : KeyFault)
  | unreadable (path : Path) (error : IoError)
  | notAFile (path : Path)
  | tooLarge (size : Nat)
  | malformed (fault : Binary.Fault)
  | uncreatable (path : Path) (error : IoError)
  | unwritable (error : IoError)
  | irreplaceable (path : Path) (error : IoError)
  deriving DecidableEq, Repr

/-- The fault with all its causes, from the outermost to the innermost. -/
def EnvelopeFault.message : EnvelopeFault → String
  | .kdf fault => fault.message
  | .encryption => "Encryption failed: aead::Error"
  | .version found => "Unsupported wallet version " ++ toString found
  | .decryption => "Decryption failed - wrong password?"
  | .keyRecords fault => "Failed to deserialize keys: " ++ fault.message
  | .keyRecord fault => "Corrupt key record: Invalid key: " ++ fault.message
  | .unreadable path error =>
    "Failed to read wallet from " ++ path.quoted ++ ": " ++ error.message
  | .notAFile path => path.quoted ++ " is not a file"
  | .tooLarge size => "Wallet file too large (" ++ toString size ++ " bytes)"
  | .malformed fault => "Failed to deserialize wallet: " ++ fault.message
  | .uncreatable path error => "Failed to create " ++ path.quoted ++ ": " ++ error.message
  | .unwritable error => error.message
  | .irreplaceable path error =>
    "Failed to write wallet to " ++ path.quoted ++ ": " ++ error.message

/-! ## Key records -/

/-- What is stored of one key. -/
structure KeyRecord where
  keyType : KeyType
  secret : Bytes
  deriving DecidableEq, Repr

namespace KeyRecord

def ofKey (key : PrivateKey) : KeyRecord := ⟨key.keyType, key.secretBytes⟩

def encode (record : KeyRecord) : Bytes :=
  record.keyType.encode ++ Binary.encodeBytes record.secret

def decode : Binary.Decoder KeyRecord := fun bytes => do
  let (keyType, rest) ← KeyType.decode bytes
  let (secret, rest) ← Binary.decodeBytes rest
  return (⟨keyType, secret⟩, rest)

/-- The key that was stored. -/
def toKey [Suite] (record : KeyRecord) : Except KeyFault PrivateKey :=
  PrivateKey.ofSecretBytes record.keyType record.secret

end KeyRecord

/-! ## Envelopes -/

/-- A sealed wallet. -/
structure Envelope where
  version : UInt32
  kdf : KdfHeader
  nonce : Block 24
  ciphertext : Bytes
  deriving DecidableEq

namespace Envelope

/-- The version that is written, and the only one that is read. -/
def currentVersion : UInt32 := 2

def encode (envelope : Envelope) : Bytes :=
  Binary.encodeUInt32 envelope.version
    ++ Binary.encodeUInt32 envelope.kdf.cost.memory
    ++ Binary.encodeUInt32 envelope.kdf.cost.passes
    ++ Binary.encodeUInt32 envelope.kdf.cost.lanes
    ++ envelope.kdf.salt.val ++ envelope.nonce.val ++ Binary.encodeBytes envelope.ciphertext

def decode : Binary.Decoder Envelope := fun bytes => do
  let (version, rest) ← Binary.decodeUInt32 bytes
  let (memory, rest) ← Binary.decodeUInt32 rest
  let (passes, rest) ← Binary.decodeUInt32 rest
  let (lanes, rest) ← Binary.decodeUInt32 rest
  let (salt, rest) ← Binary.decodeBlock 32 rest
  let (nonce, rest) ← Binary.decodeBlock 24 rest
  let (ciphertext, rest) ← Binary.decodeBytes rest
  return (⟨version, ⟨⟨memory, passes, lanes⟩, salt⟩, nonce, ciphertext⟩, rest)

/-- The text that is encrypted: the records of all keys. -/
def plaintext (keys : List PrivateKey) : Bytes :=
  Binary.encodeList KeyRecord.encode (keys.map KeyRecord.ofKey)

/-- The keys that a decrypted text stands for. -/
def keysOfPlaintext [Suite] (text : Bytes) : Except EnvelopeFault (List PrivateKey) :=
  match (Binary.decodeList KeyRecord.decode).run text with
  | .error fault => .error (.keyRecords fault)
  | .ok records => (records.mapM KeyRecord.toKey).mapError .keyRecord

/-- Seal keys under a wallet key with a fresh nonce. -/
def ofKeys [Suite] (keys : List PrivateKey) (key : Block 32) (kdf : KdfHeader) :
    StateM Entropy (Except EnvelopeFault Envelope) := do
  let nonce ← Entropy.draw 24
  match Suite.encrypt key nonce (plaintext keys) with
  | some ciphertext => return .ok ⟨currentVersion, kdf, nonce, ciphertext⟩
  | none => return .error .encryption

/-- The keys that are sealed, in the order in which they were. -/
def openKeys [Suite] (envelope : Envelope) (key : Block 32) :
    Except EnvelopeFault (List PrivateKey) :=
  if envelope.version ≠ currentVersion then .error (.version envelope.version)
  else
    match Suite.decrypt key envelope.nonce envelope.ciphertext with
    | none => .error .decryption
    | some text => keysOfPlaintext text

end Envelope

end Custody
