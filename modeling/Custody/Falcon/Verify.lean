import Custody.Falcon.Encoding
import Custody.Hash.Shake256

set_option autoImplicit false

/-! # Verifying Falcon-512 signatures

A signature is a short polynomial s₂ and a nonce; the nonce and the message are hashed to a point c.
It is valid if s₂ and s₁ = c - s₂ h are short together, for the public polynomial h. -/

namespace Custody.Falcon

/-- The largest squared length of a valid pair. -/
def squaredBound : Nat := 34034726

/-- Collect residues from a stream of words; words at or above five times the modulus are passed
    over so that all residues are equally likely. -/
def collectResidues : Nat → Shake256.Stream → Residues → Residues
  | 0, _, acc => acc
  | tries + 1, stream, acc =>
    if acc.size = degree then acc
    else
      let (high, stream) := stream.next
      let (low, stream) := stream.next
      let word := 256 * high.toNat + low.toNat
      collectResidues tries stream (if word < 5 * q then acc.push (word % q) else acc)

/-- The point that a nonce and a message are hashed to. -/
def hashToPoint (nonce message : Bytes) : Residues :=
  collectResidues (64 * degree) (Shake256.stream (nonce ++ message)) #[]

/-- The sum of the squares. -/
def squaredLength (values : Array Int) : Nat :=
  values.foldl (fun acc x => acc + x.natAbs * x.natAbs) 0

/-- The difference of two residues, of least magnitude. -/
def centeredDifference (a b : Nat) : Int := centered ((a + (q - b)) % q)

/-- Whether a signature is valid for a message under a public key. -/
def verify (publicKey message signature : Bytes) : Bool :=
  let nonce := (signature.drop 1).take nonceLength
  let compressed := signature.drop (1 + nonceLength)
  if maxSignatureLength < signature.length ∨ signature.head? ≠ some 0x39 ∨ compressed = [] then
    false
  else
    match decodePublicKey publicKey, decompress compressed with
    | some h, some s2 =>
      let s1 := Array.zipWith centeredDifference (hashToPoint nonce message)
        (mulMod (s2.map residue) h)
      squaredLength s1 + squaredLength s2 ≤ squaredBound
    | _, _ => false

end Custody.Falcon
