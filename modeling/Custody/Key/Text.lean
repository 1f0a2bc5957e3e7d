import Custody.Key.Private

set_option autoImplicit false

/-! # Texts of keys and signatures

A key or signature is written as a word for its kind, the name of its scheme and its bytes in
hexadecimal, joined by underscores: `PUB_ED25519_…`. Reading takes the kind off, then the scheme up
to the next underscore, then the digits, and checks the length last. -/

namespace Custody

/-- The kinds of text. -/
inductive KeyText.Kind
  | publicKey
  | privateKey
  | signature
  deriving DecidableEq, Repr

namespace KeyText

/-- The word that a text of the kind starts with. -/
def Kind.word : Kind → String
  | .publicKey => "PUB"
  | .privateKey => "PVT"
  | .signature => "SIG"

/-- Write bytes of a scheme. -/
def print (kind : Kind) (keyType : KeyType) (bytes : Bytes) : String :=
  kind.word ++ "_" ++ keyType.text ++ "_" ++ Hex.encode bytes

/-- The text after a given beginning, if it has that beginning. -/
def strip? : List Char → List Char → Option (List Char)
  | [], text => some text
  | c :: front, d :: text => if c = d then strip? front text else none
  | _ :: _, [] => none

/-- Read the scheme and the bytes of a text. The name of the scheme may not be empty. -/
def parse (kind : Kind) (text : String) : Except KeyFault (KeyType × Bytes) :=
  match strip? (kind.word.toList ++ ['_']) text.toList with
  | none => .error (.form kind.word)
  | some rest =>
    let name := rest.takeWhile (· != '_')
    match rest.dropWhile (· != '_') with
    | [] => .error (.form kind.word)
    | _ :: body =>
      if name = [] then .error (.form kind.word)
      else
        match KeyType.ofText? (String.ofList name) with
        | none => .error (.unknownType (String.ofList name))
        | some keyType =>
          match Hex.decode (String.ofList body) with
          | .error fault => .error (.hex fault)
          | .ok bytes => .ok (keyType, bytes)

end KeyText

namespace PublicKey

def toText (key : PublicKey) : String := KeyText.print .publicKey key.keyType key.bytes

/-- Read a public key; an Ed25519 key must be a point of the curve. -/
def ofText [Suite] (text : String) : Except KeyFault PublicKey := do
  let (keyType, bytes) ← KeyText.parse .publicKey text
  match keyType with
  | .ed25519 =>
    match Block.ofBytes? 32 bytes with
    | none => throw .ed25519PublicLength
    | some block => if !Suite.ed25519IsPoint block then throw .ed25519Point
  | .falcon512 => if bytes.length ≠ 897 then throw .falconPublicLength
  return ⟨keyType, bytes⟩

end PublicKey

namespace PrivateKey

def toText (key : PrivateKey) : String := KeyText.print .privateKey key.keyType key.secretBytes

/-- Read a private key. -/
def ofText [Suite] (text : String) : Except KeyFault PrivateKey := do
  let (keyType, bytes) ← KeyText.parse .privateKey text
  ofSecretBytes keyType bytes

/-- The key without its secret, for showing. -/
def redacted (key : PrivateKey) : String :=
  "PrivateKey(" ++ key.publicKey.toText ++ ", <redacted>)"

end PrivateKey

namespace Signature

def toText (signature : Signature) : String :=
  KeyText.print .signature signature.keyType signature.bytes

/-- Read a signature; a Falcon-512 signature may have any length. -/
def ofText (text : String) : Except KeyFault Signature := do
  let (keyType, bytes) ← KeyText.parse .signature text
  if keyType = .ed25519 ∧ bytes.length ≠ 64 then throw .ed25519SignatureLength
  return ⟨keyType, bytes⟩

end Signature

end Custody
