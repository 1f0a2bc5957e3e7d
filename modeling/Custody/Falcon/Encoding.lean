import Custody.Bytes
import Custody.Falcon.Modular

set_option autoImplicit false

/-! # Falcon encodings

Keys and signatures are strings of bits, the highest bit of each byte first. A public key has 14
bits for each coefficient; a secret key has six bits for each coefficient of `f` and `g` and eight
for those of `F`; a signature has for each coefficient its sign, its seven low bits and the rest in
unary. Each value has one encoding only. -/

namespace Custody.Falcon

/-- Bits, in reading order. -/
abbrev Bits := List Bool

/-- The `width` low bits of a number, the highest first. -/
def Bits.ofNat : Nat → Nat → Bits
  | 0, _ => []
  | width + 1, n => n.testBit width :: Bits.ofNat width n

/-- The number that bits stand for, the first bit the highest. -/
def Bits.toNat (bits : Bits) : Nat := bits.foldl (fun n b => 2 * n + b.toNat) 0

/-- The bits of a byte string. -/
def Bits.ofBytes (bytes : Bytes) : Bits := bytes.flatMap fun b => Bits.ofNat 8 b.toNat

/-- The bytes that bits fill, the last one filled up with zero bits. -/
def Bits.toBytes (bits : Bits) : Bytes :=
  if bits = [] then []
  else
    let first := bits.take 8
    (Bits.toNat (first ++ List.replicate (8 - first.length) false)).toUInt8
      :: Bits.toBytes (bits.drop 8)
termination_by bits.length
decreasing_by
  rename_i h
  have := List.length_pos_iff.2 h
  rw [List.length_drop]
  omega

/-! ## Coefficients of fixed width -/

/-- Split bits into groups of a positive width; a last group that is too short is dropped. -/
def Bits.groups (width : Nat) (bits : Bits) : List Bits :=
  if 0 < width ∧ width ≤ bits.length then
    bits.take width :: Bits.groups width (bits.drop width)
  else []
termination_by bits.length
decreasing_by
  rw [List.length_drop]
  omega

/-- A public key's coefficients: 14 bits each and below the modulus. -/
def decodeResidues (bytes : Bytes) : Option Residues :=
  let values := ((Bits.ofBytes bytes).groups 14).map Bits.toNat
  if values.length = degree ∧ values.all (· < q) then some values.toArray else none

def encodeResidues (values : Residues) : Bytes :=
  Bits.toBytes (values.toList.flatMap (Bits.ofNat 14))

/-- Small signed coefficients in two's complement; the lowest value of the width is not used. -/
def decodeSmall (width : Nat) (bytes : Bytes) : Option (Array Int) :=
  let signed (n : Nat) : Int := if n < Nat.pow 2 (width - 1) then n else (n : Int) - Nat.pow 2 width
  let values := ((Bits.ofBytes bytes).groups width).map (signed ·.toNat)
  if values.all (· != -(Nat.pow 2 (width - 1) : Int)) then some values.toArray else none

def encodeSmall (width : Nat) (values : Array Int) : Bytes :=
  Bits.toBytes (values.toList.flatMap fun x => Bits.ofNat width (x % (Nat.pow 2 width : Int)).toNat)

/-! ## Compressed signatures -/

/-- A unary number: zero bits, closed by a set bit. -/
def decodeUnary : Bits → Option (Nat × Bits)
  | [] => none
  | true :: rest => some (0, rest)
  | false :: rest => (decodeUnary rest).map fun (n, rest) => (n + 1, rest)

/-- One coefficient: sign, seven low bits, and the rest in unary. Zero has no sign, and the
    magnitude stays below 2048. -/
def decodeCoefficient (bits : Bits) : Option (Int × Bits) :=
  match bits with
  | sign :: rest =>
    if rest.length < 7 then none
    else
      match decodeUnary (rest.drop 7) with
      | none => none
      | some (high, rest') =>
        let magnitude := Bits.toNat (rest.take 7) + 128 * high
        if 2047 < magnitude ∨ (sign ∧ magnitude = 0) then none
        else some (if sign then -(magnitude : Int) else magnitude, rest')
  | [] => none

def encodeCoefficient (x : Int) : Bits :=
  decide (x < 0) :: Bits.ofNat 7 (x.natAbs % 128)
    ++ List.replicate (x.natAbs / 128) false ++ [true]

/-- Read a number of coefficients, adding them to those read before. -/
def decodeCoefficients : Nat → Bits → Array Int → Option (Array Int × Bits)
  | 0, bits, acc => some (acc, bits)
  | count + 1, bits, acc =>
    match decodeCoefficient bits with
    | none => none
    | some (x, rest) => decodeCoefficients count rest (acc.push x)

/-- All coefficients of a compressed polynomial, which must fill the bytes: fewer than eight bits
    are left over, and those are zero. -/
def decompress (bytes : Bytes) : Option (Array Int) :=
  match decodeCoefficients degree (Bits.ofBytes bytes) #[] with
  | some (values, rest) => if rest.length < 8 ∧ rest.all (!·) then some values else none
  | none => none

def compress (values : Array Int) : Bytes :=
  Bits.toBytes (values.toList.flatMap encodeCoefficient)

/-! ## Keys and signatures -/

/-- Bytes of a public key. -/
def publicKeyLength : Nat := 897

/-- Bytes of a secret key. -/
def secretKeyLength : Nat := 1281

/-- The most bytes that a signature may have. -/
def maxSignatureLength : Nat := 666

/-- Bytes of the random prefix that is hashed with a message. -/
def nonceLength : Nat := 40

/-- The polynomial of a public key: the byte 0x09 and its coefficients. -/
def decodePublicKey (bytes : Bytes) : Option Residues :=
  match bytes with
  | 0x09 :: rest => decodeResidues rest
  | _ => none

def encodePublicKey (h : Residues) : Bytes := 0x09 :: encodeResidues h

/-- The short polynomials of a secret key. -/
structure Trapdoor where
  f : Array Int
  g : Array Int
  bigF : Array Int
  bigG : Array Int

/-- Three of a secret key's polynomials: the byte 0x59, and `f`, `g` and `F`. The fourth follows
    from g F - f G = 0 modulo q, and must be as short as the third. -/
def decodeSecretKey (bytes : Bytes) : Option Trapdoor := do
  if bytes.length ≠ secretKeyLength ∨ bytes.head? ≠ some 0x59 then none
  let f ← decodeSmall 6 ((bytes.drop 1).take 384)
  let g ← decodeSmall 6 ((bytes.drop 385).take 384)
  let bigF ← decodeSmall 8 (bytes.drop 769)
  let quotient ← divMod? (g.map residue) (f.map residue)
  let bigG := (mulMod quotient (bigF.map residue)).map centered
  if bigG.all fun x => -127 ≤ x ∧ x ≤ 127 then some ⟨f, g, bigF, bigG⟩ else none

def encodeSecretKey (t : Trapdoor) : Bytes :=
  0x59 :: encodeSmall 6 t.f ++ encodeSmall 6 t.g ++ encodeSmall 8 t.bigF

end Custody.Falcon
