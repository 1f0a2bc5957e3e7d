import Custody.Key.Text

set_option autoImplicit false

/-! # Chains, transactions and what is signed of them

A transaction is signed through the digest of its chain's id and its own binary layout. The id has
a fixed length and the layout is unambiguous, so a signature binds both; the signatures that are
attached already are not part of it. -/

namespace Custody

/-! ## Chain ids -/

/-- The name of a chain: a digest. -/
structure ChainId where
  digest : Digest
  deriving DecidableEq

namespace ChainId

/-- The id of a named network. -/
def ofNetwork [Suite] (name : String) : ChainId :=
  ⟨Suite.sha256 (Utf8.encode "TT_CHAIN_ID.v1" ++ Utf8.encode name)⟩

def toText (chain : ChainId) : String := Hex.encode chain.digest.val

/-- The id as it is shown among other values. -/
def shown (chain : ChainId) : String := "ChainId(" ++ chain.toText ++ ")"

/-- Read an id of 32 bytes in hexadecimal. -/
def ofText (text : String) : Except KeyFault ChainId :=
  match Hex.decode text with
  | .error fault => .error (.chainHex fault)
  | .ok bytes =>
    match Block.ofBytes? 32 bytes with
    | some digest => .ok ⟨digest⟩
    | none => .error .chainLength

end ChainId

/-- The digest of several byte strings, one after the other. -/
def digestOfParts [Suite] (parts : List Bytes) : Digest := Suite.sha256 parts.flatten

/-! ## Transactions -/

/-- A named action with its data. -/
structure Action where
  name : String
  data : Bytes
  deriving DecidableEq, Repr

namespace Action

def encode (action : Action) : Bytes :=
  Binary.encodeText action.name ++ Binary.encodeBytes action.data

def decode : Binary.Decoder Action := fun bytes => do
  let (name, rest) ← Binary.decodeText bytes
  let (data, rest) ← Binary.decodeBytes rest
  return (⟨name, data⟩, rest)

end Action

/-- The body of a transaction. -/
structure Transaction where
  expiration : UInt64
  refBlock : UInt32
  actions : List Action
  fee : UInt64
  nonce : UInt64
  deriving DecidableEq, Repr

namespace Transaction

def encode (tx : Transaction) : Bytes :=
  Binary.encodeUInt64 tx.expiration ++ Binary.encodeUInt32 tx.refBlock
    ++ Binary.encodeList Action.encode tx.actions
    ++ Binary.encodeUInt64 tx.fee ++ Binary.encodeUInt64 tx.nonce

def decode : Binary.Decoder Transaction := fun bytes => do
  let (expiration, rest) ← Binary.decodeUInt64 bytes
  let (refBlock, rest) ← Binary.decodeUInt32 rest
  let (actions, rest) ← Binary.decodeList Action.decode rest
  let (fee, rest) ← Binary.decodeUInt64 rest
  let (nonce, rest) ← Binary.decodeUInt64 rest
  return (⟨expiration, refBlock, actions, fee, nonce⟩, rest)

/-- The digest that names the transaction. -/
def id [Suite] (tx : Transaction) : Digest := Suite.shake256 tx.encode

end Transaction

/-! ## Signed transactions -/

/-- A transaction with the signatures attached to it. -/
structure SignedTransaction where
  body : Transaction
  signatures : List Signature
  deriving DecidableEq, Repr

namespace SignedTransaction

def encode (tx : SignedTransaction) : Bytes :=
  tx.body.encode ++ Binary.encodeList Signature.encode tx.signatures

def decode : Binary.Decoder SignedTransaction := fun bytes => do
  let (body, rest) ← Transaction.decode bytes
  let (signatures, rest) ← Binary.decodeList Signature.decode rest
  return (⟨body, signatures⟩, rest)

/-- The bytes that a signature of the transaction covers. -/
def signedBytes (tx : SignedTransaction) (chain : ChainId) : Bytes :=
  chain.digest.val ++ tx.body.encode

/-- The digest that is signed. -/
def signingDigest [Suite] (tx : SignedTransaction) (chain : ChainId) : Digest :=
  digestOfParts [chain.digest.val, tx.body.encode]

/-- Whether one of the signatures is valid under a key. -/
def isSignedBy [Suite] (tx : SignedTransaction) (chain : ChainId) (key : PublicKey) : Bool :=
  tx.signatures.any (key.verify (tx.signingDigest chain))

end SignedTransaction

end Custody
