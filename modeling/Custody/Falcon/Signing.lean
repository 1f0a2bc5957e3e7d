import Custody.Falcon.Sampling
import Custody.Falcon.Verify

set_option autoImplicit false

/-! # Signing with Falcon-512

A signature is a lattice point drawn near the hashed point with the help of the secret basis. Nonce
and draws come from the caller's random bytes. A secret key that does not decode signs nothing: its
signature is empty. So is one for which no point was short enough in 32 draws, where the reference
algorithm goes on drawing without bound. -/

namespace Custody.Falcon

open Shake256 (Stream)

/-- The deviation of signatures. -/
def signatureDeviation : Float := 165.7366171829776

/-- The secret basis as values, and its decomposition. -/
structure SigningKey where
  b00 : Values
  b01 : Values
  b10 : Values
  b11 : Values
  tree : SamplingTree

def SigningKey.ofTrapdoor (t : Trapdoor) : SigningKey :=
  let b00 := Values.ofInts levels t.g
  let b01 := (Values.ofInts levels t.f).neg
  let b10 := Values.ofInts levels t.bigG
  let b11 := (Values.ofInts levels t.bigF).neg
  let g00 := (b00.mulConj b00).add (b01.mulConj b01)
  let g01 := (b00.mulConj b10).add (b01.mulConj b11)
  let g11 := (b10.mulConj b10).add (b11.mulConj b11)
  ⟨b00, b01, b10, b11, .ofGram signatureDeviation levels g00 g01 g11⟩

/-- Draw lattice points until one is short enough and its encoding fits, and give up after a number of
    tries. -/
def drawSignature (key : SigningKey) (point : Residues) : Nat → Stream → Option Bytes
  | 0, _ => none
  | tries + 1, stream =>
    let target := Values.ofCoefficients levels (point.map Nat.toFloat)
    let share (b : Values) : Values := (target.mul b).map (Complex.scale (1 / q.toFloat))
    let ((z0, z1), stream) :=
      key.tree.sample levels (share key.b11) (share key.b01.neg) stream
    let v0 := (z0.mul key.b00).add (z1.mul key.b10)
    let v1 := (z0.mul key.b01).add (z1.mul key.b11)
    let s1 := ((target.sub v0).coefficients levels).map roundToInt
    let s2 := (v1.neg.coefficients levels).map roundToInt
    let compressed := compress s2
    -- a coefficient that is too large for the encoding does not read back
    if squaredLength s1 + squaredLength s2 ≤ squaredBound
        ∧ 1 + nonceLength + compressed.length ≤ maxSignatureLength
        ∧ (decompress compressed).isSome then some compressed
    else drawSignature key point tries stream

/-- The signature of a message, with the given nonce and random seed. It is empty if the secret key does
    not decode or 32 draws have found nothing. -/
def sign (secretKey : Bytes) (nonce : Block 40) (seed : Block 48) (message : Bytes) : Bytes :=
  match decodeSecretKey secretKey with
  | none => []
  | some trapdoor =>
    match drawSignature (.ofTrapdoor trapdoor) (hashToPoint nonce.val message) 32
        (Shake256.stream seed.val) with
    | none => []
    | some compressed => 0x39 :: nonce.val ++ compressed

end Custody.Falcon
