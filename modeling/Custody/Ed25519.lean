import Custody.Hash.Sha2

set_option autoImplicit false

/-! # Ed25519

The signature scheme of RFC 8032 over the twisted Edwards curve -x² + y² = 1 + d x² y² modulo
2^255 - 19. Verification recomputes the commitment and compares encodings, without a cofactor; a
compressed point may have a y that is not reduced, and a sign bit where x is zero. -/

namespace Custody.Ed25519

/-! ## The field -/

/-- The prime of the field. -/
def p : Nat := Nat.pow 2 255 - 19

/-- The prime order of the base point. -/
def order : Nat := Nat.pow 2 252 + 27742317777372353535851937790883648493

namespace Coordinate

@[inline] def add (a b : Nat) : Nat := (a + b) % p

@[inline] def sub (a b : Nat) : Nat := (a + (p - b)) % p

@[inline] def mul (a b : Nat) : Nat := a * b % p

@[inline] def neg (a : Nat) : Nat := (p - a) % p

/-- A power by repeated squaring, for exponents below 2^256. -/
def pow (a exponent : Nat) : Nat :=
  (List.range 256).foldr
    (fun i acc =>
      let square := mul acc acc
      if exponent.testBit i then mul square a else square) 1

/-- The multiplicative inverse, and zero for zero. -/
def inv (a : Nat) : Nat := pow a (p - 2)

/-- A square root of -1. -/
def sqrtMinusOne : Nat :=
  19681161376707505956807079304988542015446066515923890162744021073123829784752

/-- An even square root of the quotient `u / v`, if it has one. -/
def sqrtRatio (u v : Nat) : Option Nat :=
  let v3 := mul (mul v v) v
  let v7 := mul (mul v3 v3) v
  let root := mul (mul u v3) (pow (mul u v7) ((p - 5) / 8))
  let square := mul v (mul root root)
  let root := if square = u then some root
    else if square = neg u then some (mul root sqrtMinusOne) else none
  root.map fun x => if x % 2 = 1 then neg x else x

end Coordinate

open Coordinate

/-! ## The curve -/

/-- The coefficient `d` of the curve. -/
def d : Nat := 37095705934669439343138083508754565189542113879843219016388785533085940283555

/-- Twice the coefficient. -/
def d2 : Nat := add d d

/-- A point in extended coordinates: `x / z`, `y / z`, and `t` with `x y = z t`. -/
structure Point where
  x : Nat
  y : Nat
  z : Nat
  t : Nat

/-- The neutral point. -/
def Point.zero : Point := ⟨0, 1, 1, 0⟩

/-- The base point. -/
def Point.base : Point :=
  let x := 15112221349535400772501151409588531511454012693041857206046113283949847762202
  let y := 46316835694926478169428394003475163141307993866256225615783033603165251855960
  ⟨x, y, 1, mul x y⟩

/-- The sum of two points; the formula has no exceptions. -/
def Point.add (a b : Point) : Point :=
  let m := mul (sub a.y a.x) (sub b.y b.x)
  let n := mul (Coordinate.add a.y a.x) (Coordinate.add b.y b.x)
  let k := mul (mul a.t d2) b.t
  let w := mul (Coordinate.add a.z a.z) b.z
  let e := sub n m
  let f := sub w k
  let g := Coordinate.add w k
  let h := Coordinate.add n m
  ⟨mul e f, mul g h, mul f g, mul e h⟩

/-- Twice a point. -/
def Point.double (a : Point) : Point :=
  let m := mul a.x a.x
  let n := mul a.y a.y
  let w := mul a.z a.z
  let h := Coordinate.add m n
  let s := Coordinate.add a.x a.y
  let e := sub h (mul s s)
  let g := sub m n
  let f := Coordinate.add (Coordinate.add w w) g
  ⟨mul e f, mul g h, mul f g, mul e h⟩

/-- The opposite point. -/
def Point.neg (a : Point) : Point := ⟨Coordinate.neg a.x, a.y, a.z, Coordinate.neg a.t⟩

/-- The sum of two multiples, for scalars below 2^256. -/
def Point.combine (m : Nat) (a : Point) (n : Nat) (b : Point) : Point :=
  let both := a.add b
  (List.range 256).foldr
    (fun i acc =>
      let twice := acc.double
      match m.testBit i, n.testBit i with
      | true, true => twice.add both
      | true, false => twice.add a
      | false, true => twice.add b
      | false, false => twice) Point.zero

/-- A multiple of a point, for scalars below 2^256. -/
def Point.smul (m : Nat) (a : Point) : Point :=
  (List.range 256).foldr
    (fun i acc => let twice := acc.double; if m.testBit i then twice.add a else twice) Point.zero

/-- The canonical encoding: `y`, with the parity of `x` in the top bit. -/
def Point.encode (a : Point) : Block 32 :=
  let inverse := inv a.z
  let x := mul a.x inverse
  let y := mul a.y inverse
  ⟨Bytes.ofNat 32 (y + (x % 2) * Nat.pow 2 255), Bytes.length_ofNat _ _⟩

/-- The point that an encoding stands for, if there is one. -/
def Point.decode? (bytes : Block 32) : Option Point :=
  let n := bytes.val.toNat
  let y := n % Nat.pow 2 255 % p
  let square := mul y y
  (sqrtRatio (sub square 1) (Coordinate.add (mul d square) 1)).map fun root =>
    let x := if n.testBit 255 then Coordinate.neg root else root
    ⟨x, y, 1, mul x y⟩

/-! ## Signatures -/

/-- The secret scalar and the secret that commitments are derived from. -/
def expand (seed : Block 32) : Nat × Bytes :=
  let digest := (Sha512.hash seed.val).val
  let low := Bytes.toNat (digest.take 32)
  -- bit 254 is set, the bits above it and the three lowest are cleared
  (Nat.pow 2 254 + low % Nat.pow 2 254 / 8 * 8, digest.drop 32)

/-- The digest of some byte strings as a scalar. -/
def challenge (parts : Bytes) : Nat := (Sha512.hash parts).val.toNat % order

/-- The public key of a seed. -/
def publicKey (seed : Block 32) : Block 32 := (Point.base.smul (expand seed).1).encode

/-- The signature of a message: the commitment, then the response. -/
def sign (seed : Block 32) (message : Bytes) : Block 64 :=
  let (secret, nonceKey) := expand seed
  let nonce := challenge (nonceKey ++ message)
  let commitment := (Point.base.smul nonce).encode
  let response := (nonce
    + challenge (commitment.val ++ (publicKey seed).val ++ message) * secret) % order
  ⟨commitment.val ++ Bytes.ofNat 32 response, by simp [commitment.property]⟩

/-- Whether the bytes are a point of the curve. -/
def isPoint (key : Block 32) : Bool := (Point.decode? key).isSome

/-- Whether a signature is valid: its response is reduced, and the commitment that follows from the
    response and the key has the encoding that the signature gives. -/
def verify (key : Block 32) (message : Bytes) (signature : Block 64) : Bool :=
  match Point.decode? key with
  | none => false
  | some point =>
    let commitment := signature.val.take 32
    let response := Bytes.toNat (signature.val.drop 32)
    let k := challenge (commitment ++ key.val ++ message)
    response < order && (Point.combine response Point.base k point.neg).encode.val == commitment

end Custody.Ed25519
