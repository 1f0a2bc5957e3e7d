import Custody.Binary
import Custody.Suite
import Std.Data.ExtTreeMap
import Std.Data.ExtTreeSet

set_option autoImplicit false

/-! # Public keys and signatures

A public key and a signature are bytes together with the scheme they belong to. Both are ordered by
scheme and then by their bytes, and so are the sets that they are kept in. -/

namespace Custody

/-! ## Schemes -/

/-- A signature scheme. -/
inductive KeyType
  | ed25519
  | falcon512
  deriving DecidableEq, Repr, Inhabited

namespace KeyType

/-- The scheme's name in key texts. -/
def text : KeyType → String
  | .ed25519 => "ED25519"
  | .falcon512 => "FALCON512"

/-- The scheme of that exact name; the empty text stands for Ed25519. -/
def ofText? (text : String) : Option KeyType :=
  if text = "" ∨ text = "ED25519" then some .ed25519
  else if text = "FALCON512" then some .falcon512
  else none

/-- The scheme's tag in binary layouts. -/
def tag : KeyType → UInt32
  | .ed25519 => 0
  | .falcon512 => 1

def encode (keyType : KeyType) : Bytes := Binary.encodeUInt32 keyType.tag

def decode : Binary.Decoder KeyType := fun bytes => do
  let (tag, rest) ← Binary.decodeUInt32 bytes
  if tag = 0 then return (.ed25519, rest)
  else if tag = 1 then return (.falcon512, rest)
  else throw (.unknownTag tag)

instance : Ord KeyType := ⟨compareOn KeyType.tag⟩

instance : Std.TransOrd KeyType := inferInstanceAs (Std.TransCmp (compareOn KeyType.tag))

instance : Std.LawfulEqOrd KeyType where
  eq_of_compare := by
    intro a b h
    cases a <;> cases b <;> revert h <;> decide

end KeyType

/-! ## Public keys -/

/-- A public key. Only texts are checked for the length that the scheme asks for, so a key may have
    bytes under which nothing verifies. -/
structure PublicKey where
  keyType : KeyType
  bytes : Bytes
  deriving DecidableEq, Repr, Inhabited

/-- A signature, with bytes of any length. -/
structure Signature where
  keyType : KeyType
  bytes : Bytes
  deriving DecidableEq, Repr, Inhabited

namespace PublicKey

instance : Ord PublicKey := ⟨compareLex (compareOn keyType) (compareOn bytes)⟩

instance : Std.TransOrd PublicKey :=
  inferInstanceAs (Std.TransCmp (compareLex (compareOn keyType) (compareOn bytes)))

instance : Std.LawfulEqOrd PublicKey where
  eq_of_compare := by
    intro a b h
    have h' : compareLex (compareOn keyType) (compareOn bytes) a b = .eq := h
    simp only [compareLex, compareOn, Ordering.then_eq_eq, Std.LawfulEqOrd.compare_eq_iff_eq] at h'
    cases a
    cases b
    simp_all

def encode (key : PublicKey) : Bytes := key.keyType.encode ++ Binary.encodeBytes key.bytes

def decode : Binary.Decoder PublicKey := fun bytes => do
  let (keyType, rest) ← KeyType.decode bytes
  let (bytes, rest) ← Binary.decodeBytes rest
  return (⟨keyType, bytes⟩, rest)

/-- Whether a signature of the digest is valid under the key: it must belong to the same scheme, and
    both must have the scheme's length. -/
def verify [Suite] (key : PublicKey) (digest : Digest) (signature : Signature) : Bool :=
  signature.keyType = key.keyType &&
  match key.keyType with
  | .ed25519 =>
    match Block.ofBytes? 32 key.bytes, Block.ofBytes? 64 signature.bytes with
    | some pub, some sig => Suite.ed25519Verify pub digest.val sig
    | _, _ => false
  | .falcon512 =>
    match Block.ofBytes? 897 key.bytes with
    | some pub => Suite.falconVerify pub digest.val signature.bytes
    | none => false

end PublicKey

/-! ## Signatures -/

namespace Signature

instance : Ord Signature := ⟨compareLex (compareOn keyType) (compareOn bytes)⟩

instance : Std.TransOrd Signature :=
  inferInstanceAs (Std.TransCmp (compareLex (compareOn keyType) (compareOn bytes)))

instance : Std.LawfulEqOrd Signature where
  eq_of_compare := by
    intro a b h
    have h' : compareLex (compareOn keyType) (compareOn bytes) a b = .eq := h
    simp only [compareLex, compareOn, Ordering.then_eq_eq, Std.LawfulEqOrd.compare_eq_iff_eq] at h'
    cases a
    cases b
    simp_all

def encode (signature : Signature) : Bytes :=
  signature.keyType.encode ++ Binary.encodeBytes signature.bytes

def decode : Binary.Decoder Signature := fun bytes => do
  let (keyType, rest) ← KeyType.decode bytes
  let (bytes, rest) ← Binary.decodeBytes rest
  return (⟨keyType, bytes⟩, rest)

end Signature

/-- A set of public keys in their order. -/
abbrev KeySet := Std.ExtTreeSet PublicKey

/-- A set of signatures in their order. -/
abbrev SignatureSet := Std.ExtTreeSet Signature

end Custody
