import Custody.Falcon.Sampling
import Custody.Falcon.Verify

set_option autoImplicit false

/-! # Falcon-512 key pairs

A key pair comes from two random short polynomials f and g whose lattice has no vector that is too
long, completed by short F and G with f G - g F = q. The completion goes up a tower of rings: the
equation is solved for the norms of f and g, one level of half the degree down, and the solution is
lifted and made short again. -/

namespace Custody.Falcon

open Shake256 (Stream)

/-! ## Integer polynomials -/

/-- Coefficients of an integer polynomial, reduced by x^n = -1 for their number n. -/
abbrev IntPoly := Array Int

/-- The bits that a magnitude takes. -/
def bitLength (x : Int) : Nat := if x = 0 then 0 else x.natAbs.log2 + 1

/-- The bits of the largest coefficient. -/
def IntPoly.bitLength (a : IntPoly) : Nat := a.foldl (fun m x => max m (Falcon.bitLength x)) 0

/-- The value at 2^width. -/
def IntPoly.pack (width : Nat) (a : IntPoly) : Int :=
  a.foldr (fun x acc => acc * Nat.pow 2 width + x) 0

/-- The coefficients, of magnitude below 2^(width - 1), of the polynomial with a value at
    2^width. -/
def IntPoly.unpack (width count : Nat) (value : Int) : IntPoly :=
  ((List.range count).foldl
    (fun (acc : IntPoly × Int) _ =>
      let low := acc.2 % Nat.pow 2 width
      let digit := if low < Nat.pow 2 (width - 1) then low else low - Nat.pow 2 width
      (acc.1.push digit, (acc.2 - digit) / Nat.pow 2 width)) (#[], value)).1

/-- The product, through the values at a power of two that keeps the coefficients apart. -/
def IntPoly.mul (a b : IntPoly) : IntPoly :=
  let n := a.size
  let width := a.bitLength + b.bitLength + Nat.log2 (n + 1) + 3
  let product := unpack width (2 * n) (a.pack width * b.pack width)
  (Array.range n).map fun i => product.getD i 0 - product.getD (n + i) 0

/-- The polynomial at -x. -/
def IntPoly.alternate (a : IntPoly) : IntPoly :=
  (Array.range a.size).map fun i => if i % 2 = 0 then a.getD i 0 else -a.getD i 0

/-- The norm to the ring of half the degree: the product with the alternate, which has even powers
    only. -/
def IntPoly.norm (a : IntPoly) : IntPoly := everySecond 0 (a.mul a.alternate)

/-- The polynomial at x². -/
def IntPoly.lift (a : IntPoly) : IntPoly :=
  (Array.range (2 * a.size)).map fun i => if i % 2 = 0 then a.getD (i / 2) 0 else 0

/-- The coefficients divided by a power of two, rounded down, as floating-point numbers. -/
def IntPoly.scaled (level shift : Nat) (a : IntPoly) : Values :=
  Values.ofCoefficients level (a.map fun x => Float.ofInt (x / Nat.pow 2 shift))

/-- The bits by which one step of `shorten` makes its polynomials smaller, at most. -/
def shorteningStep : Nat := 24

/-- Take multiples of (f, g) away from (F, G), the largest first, until nothing more can be taken.
    Each multiple is found in floating point from the leading bits of the coefficients. -/
def shorten (level : Nat) (f g : IntPoly) (tries : Nat) (bigF bigG : IntPoly) :
    IntPoly × IntPoly :=
  let size := max 53 (max f.bitLength g.bitLength)
  let vf := f.scaled level (size - 53)
  let vg := g.scaled level (size - 53)
  let length := (vf.mulConj vf).add (vg.mulConj vg)
  go size vf vg length tries bigF bigG
where
  /-- One round after the other, until a round takes nothing away. -/
  go (size : Nat) (vf vg length : Values) : Nat → IntPoly → IntPoly → IntPoly × IntPoly
  | 0, bigF, bigG => (bigF, bigG)
  | tries + 1, bigF, bigG =>
    -- only the 53 leading bits are looked at, as many as a floating-point number holds
    let bigSize := max size (max bigF.bitLength bigG.bitLength)
    let step := min shorteningStep (bigSize - size)
    let shift := bigSize - size - step
    let vF := bigF.scaled level (size - 53 + shift)
    let vG := bigG.scaled level (size - 53 + shift)
    let overlap := (vF.mulConj vf).add (vG.mulConj vg)
    let k := ((overlap.divReal length).coefficients level).map roundToInt
    if k.all (· == 0) then (bigF, bigG)
    else
      let less (big small : IntPoly) : IntPoly :=
        Array.zipWith (fun x y => x - y * Nat.pow 2 shift) big (small.mul k)
      go size vf vg length tries (less bigF f) (less bigG g)

/-- The greatest common divisor of `a` and `b`, with its coefficients. -/
def bezout (a b : Nat) : Nat × Int × Int :=
  if b = 0 then (a, 1, 0)
  else
    let (d, u, v) := bezout b (a % b)
    (d, v, u - (a / b : Nat) * v)
termination_by b
decreasing_by
  rename_i h
  exact Nat.mod_lt _ (Nat.pos_of_ne_zero h)

/-- A short solution (F, G) of f G - g F = q, if the norms of f and g have no common divisor. -/
def solve : Nat → IntPoly → IntPoly → Option (IntPoly × IntPoly)
  | 0, f, g =>
    let f := f.getD 0 0
    let g := g.getD 0 0
    let (d, u, v) := bezout f.natAbs g.natAbs
    if d = 1 then some (#[-(v * g.sign * q)], #[u * f.sign * q]) else none
  | level + 1, f, g =>
    match solve level f.norm g.norm with
    | none => none
    | some (bigF, bigG) =>
      some (shorten (level + 1) f g 10000 (bigF.lift.mul g.alternate) (bigG.lift.mul f.alternate))

/-! ## Generation -/

/-- The deviation of the coefficients of f and g. -/
def keyDeviation : Float := 1.17 * Float.sqrt (q.toFloat / (2 * degree).toFloat)

/-- The largest squared length of the vectors that a key's lattice is decomposed into. -/
def keyBound : Float := 1.17 * 1.17 * q.toFloat

/-- A polynomial with Gaussian coefficients. -/
def drawPolynomial (stream : Stream) : IntPoly × Stream :=
  (List.range degree).foldl
    (fun (acc : IntPoly × Stream) _ =>
      let (x, stream) := gaussian 0 keyDeviation acc.2
      (acc.1.push x, stream)) (#[], stream)

/-- Whether the vector of f and g is short enough. -/
def isShort (f g : IntPoly) : Bool := (squaredLength f + squaredLength g).toFloat ≤ keyBound

/-- Whether the other vector of the decomposed basis is short enough. -/
def isDualShort (f g : IntPoly) : Bool :=
  let vf := Values.ofInts levels f
  let vg := Values.ofInts levels g
  let inverse := Array.zipWith (fun x y => 1 / (x.normSq + y.normSq)) vf vg
  q.toFloat * q.toFloat * inverse.foldl (· + ·) 0 / degree.toFloat ≤ keyBound

/-- Whether all coefficients are at most `bound` in magnitude. -/
def IntPoly.isWithin (bound : Nat) (a : IntPoly) : Bool := a.all fun x => x.natAbs ≤ bound

/-- The secret and public bytes of a key pair with the given short polynomials, if they can be
    completed. -/
def complete (f g : IntPoly) : Option (Bytes × Bytes) :=
  if f.isWithin 31 && g.isWithin 31 && isShort f g && isDualShort f g then
    match divMod? (g.map residue) (f.map residue) with
    | none => none
    | some h =>
      match solve levels f g with
      | none => none
      | some (bigF, bigG) =>
        if bigF.isWithin 127 && bigG.isWithin 127 then
          some (encodeSecretKey ⟨f, g, bigF, bigG⟩, encodePublicKey h)
        else none
  else none

/-- Draw short polynomials until they can be completed. -/
def search : Nat → Stream → Option (Bytes × Bytes)
  | 0, _ => none
  | tries + 1, stream =>
    let (f, stream) := drawPolynomial stream
    let (g, stream) := drawPolynomial stream
    match complete f g with
    | some pair => some pair
    | none => search tries stream

/-- The secret and public key that grow from a random seed. The search gives up after far more
    draws than it can need. -/
def keyPair (seed : Block 48) : Option (Block 1281 × Block 897) :=
  (search 10000 (Shake256.stream seed.val)).map fun (secret, pub) =>
    (Block.fit 1281 secret, Block.fit 897 pub)

end Custody.Falcon
