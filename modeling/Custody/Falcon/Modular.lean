set_option autoImplicit false

/-! # Polynomials modulo 12289

Arithmetic in the ring of polynomials of degree below 512 with coefficients modulo q = 12289, where
x^512 = -1. Products and quotients go through the values of a polynomial at the 512 roots of
x^512 + 1, which the number-theoretic transform computes by splitting even from odd
coefficients. -/

namespace Custody.Falcon

/-- The number of coefficients. -/
def degree : Nat := 512

/-- The binary logarithm of the degree. -/
def levels : Nat := 9

/-- The prime modulus. -/
def q : Nat := 12289

/-- Coefficients or values modulo q. -/
abbrev Residues := Array Nat

/-- An integer modulo q. -/
def residue (x : Int) : Nat := (x % q).toNat

/-- The representative of least magnitude. -/
def centered (x : Nat) : Int := if x ≤ q / 2 then x else (x : Int) - q

/-- A power modulo q, for exponents below 2^14. -/
def powMod (a exponent : Nat) : Nat :=
  (List.range 14).foldr
    (fun i acc => let s := acc * acc % q; if exponent.testBit i then s * a % q else s) 1

/-- The multiplicative inverse modulo q, and zero for zero. -/
def invMod (a : Nat) : Nat := powMod a (q - 2)

/-- A primitive root of unity of order 1024. -/
def unityRoot : Nat := powMod 11 12

/-- The root of unity of order 2^(level + 1) to the odd powers 1, 3, 5, …, as many as half the
    values at that level. -/
def oddPowers (level : Nat) : Residues :=
  let root := powMod unityRoot (Nat.pow 2 (levels - level))
  let square := root * root % q
  ((List.range (Nat.pow 2 (level - 1))).foldl
    (fun (acc : Residues × Nat) _ => (acc.1.push acc.2, acc.2 * square % q)) (#[], root)).1

/-- The odd powers of every level, the lowest level first. -/
def twiddles : Array Residues := ((List.range (levels + 1)).map oddPowers).toArray

/-- The coefficients with an even index, or with an odd one. -/
def everySecond {α : Type} [Inhabited α] (offset : Nat) (a : Array α) : Array α :=
  (Array.range (a.size / 2)).map fun i => a.getD (2 * i + offset) default

/-- The values of a polynomial with 2^level coefficients at the odd powers of the root. -/
def transform : Nat → Residues → Residues
  | 0, a => a
  | level + 1, a =>
    let even := transform level (everySecond 0 a)
    let odd := transform level (everySecond 1 a)
    let shifted := Array.zipWith (fun w x => w * x % q) (twiddles.getD (level + 1) #[]) odd
    Array.zipWith (fun x y => (x + y) % q) even shifted
      ++ Array.zipWith (fun x y => (x + (q - y)) % q) even shifted

/-- The coefficients of the polynomial with the given values. -/
def untransform : Nat → Residues → Residues
  | 0, a => a
  | level + 1, a =>
    let half := a.size / 2
    let low := a.extract 0 half
    let high := a.extract half a.size
    let even := Array.zipWith (fun x y => (x + y) * 6145 % q) low high
    let odd := Array.zipWith (fun w d => invMod w * d % q) (twiddles.getD (level + 1) #[])
      (Array.zipWith (fun x y => (x + (q - y)) * 6145 % q) low high)
    let even := untransform level even
    let odd := untransform level odd
    (Array.range a.size).map fun i =>
      if i % 2 = 0 then even.getD (i / 2) 0 else odd.getD (i / 2) 0

/-- The product of two polynomials. -/
def mulMod (a b : Residues) : Residues :=
  untransform levels
    (Array.zipWith (fun x y => x * y % q) (transform levels a) (transform levels b))

/-- The quotient of two polynomials, if the divisor has an inverse. -/
def divMod? (a b : Residues) : Option Residues :=
  let values := transform levels b
  if values.any (· == 0) then none
  else some (untransform levels
    (Array.zipWith (fun x y => x * invMod y % q) (transform levels a) values))

end Custody.Falcon
