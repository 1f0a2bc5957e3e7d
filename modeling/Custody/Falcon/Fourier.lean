import Custody.Falcon.Modular

set_option autoImplicit false

/-! # Polynomials over the real numbers

Signing and key generation work in floating point with the values of a polynomial at the complex
roots of x^n + 1, for n = 2^level. The values are split into those of the even and the odd
coefficients, and merged again, in the same order as `transform` splits residues. -/

namespace Custody.Falcon

/-- A complex number in floating point. -/
structure Complex where
  re : Float
  im : Float

namespace Complex

instance : Inhabited Complex := ⟨⟨0, 0⟩⟩

def ofReal (x : Float) : Complex := ⟨x, 0⟩

def add (a b : Complex) : Complex := ⟨a.re + b.re, a.im + b.im⟩

def sub (a b : Complex) : Complex := ⟨a.re - b.re, a.im - b.im⟩

def mul (a b : Complex) : Complex := ⟨a.re * b.re - a.im * b.im, a.re * b.im + a.im * b.re⟩

def conj (a : Complex) : Complex := ⟨a.re, -a.im⟩

def scale (x : Float) (a : Complex) : Complex := ⟨x * a.re, x * a.im⟩

/-- The squared magnitude. -/
def normSq (a : Complex) : Float := a.re * a.re + a.im * a.im

/-- The number on the unit circle at an angle. -/
def onCircle (angle : Float) : Complex := ⟨Float.cos angle, Float.sin angle⟩

end Complex

/-- The values of a real polynomial. -/
abbrev Values := Array Complex

def pi : Float := 3.14159265358979323846

/-- For each level, the first half of the roots: one of each pair of opposites. -/
def circleRoots : Array Values :=
  ((List.range (levels + 1)).map fun level =>
    (Array.range (Nat.pow 2 (level - 1))).map fun i =>
      Complex.onCircle (pi * (2 * i + 1).toFloat / (Nat.pow 2 level).toFloat)).toArray

namespace Values

def add (a b : Values) : Values := Array.zipWith Complex.add a b

def sub (a b : Values) : Values := Array.zipWith Complex.sub a b

def mul (a b : Values) : Values := Array.zipWith Complex.mul a b

def conj (a : Values) : Values := a.map Complex.conj

def neg (a : Values) : Values := a.map (Complex.scale (-1))

/-- The product of one polynomial with the adjoint of the other. -/
def mulConj (a b : Values) : Values := mul a (conj b)

/-- Divide by values that are real. -/
def divReal (a b : Values) : Values := Array.zipWith (fun x y => x.scale (1 / y.re)) a b

/-- The values of the even and of the odd coefficients, one level down. -/
def split (level : Nat) (a : Values) : Values × Values :=
  let half := a.size / 2
  let low := a.extract 0 half
  let high := a.extract half a.size
  let even := Array.zipWith (fun x y => (x.add y).scale 0.5) low high
  let odd := Array.zipWith (fun w d => d.mul w.conj) (circleRoots.getD level #[])
    (Array.zipWith (fun x y => (x.sub y).scale 0.5) low high)
  (even, odd)

/-- The values of the polynomial whose even and odd coefficients have the given values. -/
def merge (level : Nat) (even odd : Values) : Values :=
  let shifted := Array.zipWith Complex.mul (circleRoots.getD level #[]) odd
  add even shifted ++ sub even shifted

/-- The values of a polynomial with 2^level coefficients. -/
def ofCoefficients : Nat → Array Float → Values
  | 0, a => a.map Complex.ofReal
  | level + 1, a =>
    merge (level + 1) (ofCoefficients level (everySecond 0 a))
      (ofCoefficients level (everySecond 1 a))

/-- The coefficients of the polynomial with the given values. -/
def coefficients : Nat → Values → Array Float
  | 0, a => a.map (·.re)
  | level + 1, a =>
    let (even, odd) := split (level + 1) a
    let even := coefficients level even
    let odd := coefficients level odd
    (Array.range a.size).map fun i =>
      if i % 2 = 0 then even.getD (i / 2) 0 else odd.getD (i / 2) 0

/-- The values of a polynomial with integer coefficients. -/
def ofInts (level : Nat) (a : Array Int) : Values := ofCoefficients level (a.map Float.ofInt)

end Values

/-- The nearest integer, for magnitudes below 2^63. -/
def roundToInt (x : Float) : Int := x.round.toInt64.toInt

end Custody.Falcon
