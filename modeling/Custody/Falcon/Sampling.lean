import Custody.Falcon.Fourier
import Custody.Hash.Shake256

set_option autoImplicit false

/-! # Sampling lattice points

Draws from the discrete Gaussian distribution, and fast Fourier sampling: a lattice point near a
target is drawn coordinate by coordinate along the tree of the basis's orthogonal decomposition, so
that the draw says nothing about the basis. -/

namespace Custody.Falcon

open Shake256 (Stream)

/-- A uniform number from 0 up to 1, with 53 bits. -/
def uniform (stream : Stream) : Float × Stream :=
  let (bytes, stream) := stream.take 7
  ((Bytes.toNat bytes % Nat.pow 2 53).toFloat / (Nat.pow 2 53).toFloat, stream)

/-- The index at which weights add up to a share of them; the last one if they never do. -/
def pick : List Float → (share : Float) → Nat
  | w :: v :: rest, share => if share < w then 0 else pick (v :: rest) (share - w) + 1
  | _, _ => 0

/-- The most that a draw differs from its centre; a basis that is worth anything asks for less. -/
def maxRadius : Nat := 100

/-- An integer from the discrete Gaussian distribution with the given centre and deviation; values
    eight deviations away are left out. -/
def gaussian (center deviation : Float) (stream : Stream) : Int × Stream :=
  let radius := min (8 * deviation).ceil.toUInt64.toNat maxRadius + 1
  let first : Int := center.floor.toInt64.toInt - radius
  let offset := Float.ofInt first - center
  let weights := (List.range (2 * radius + 2)).map fun i =>
    let distance := (offset + i.toFloat) / deviation
    Float.exp (-(distance * distance) / 2)
  let (share, stream) := uniform stream
  (first + pick weights (share * weights.foldl (· + ·) 0), stream)

/-- The orthogonal decomposition of a basis, down to the deviation of each single coordinate. -/
inductive SamplingTree
  | leaf (deviation : Float)
  | node (projection : Values) (low high : SamplingTree)

/-- Decompose a self-adjoint two by two matrix of polynomials with 2^level coefficients. -/
def SamplingTree.ofGram (sigma : Float) : Nat → Values → Values → Values → SamplingTree
  | level, g00, g01, g11 =>
    let projection := (Values.conj g01).divReal g00
    let rest : Values := Array.zipWith Complex.sub g11
      (Array.zipWith (fun l g => g.scale l.normSq) projection g00)
    match level with
    | 0 =>
      let leaf (d : Values) : SamplingTree := .leaf (sigma / Float.sqrt (d.getD 0 default).re)
      .node projection (leaf g00) (leaf rest)
    | level + 1 =>
      let (low0, low1) := g00.split (level + 1)
      let (high0, high1) := rest.split (level + 1)
      .node projection (ofGram sigma level low0 low1 low0) (ofGram sigma level high0 high1 high0)

/-- Draw a pair of integer polynomials, as values, near a target pair. -/
def SamplingTree.sample : Nat → SamplingTree → Values → Values → Stream →
    (Values × Values) × Stream
  | 0, .node projection (.leaf s0) (.leaf s1), t0, t1, stream =>
    let (z1, stream) := gaussian (t1.getD 0 default).re s1 stream
    let z1 : Values := #[.ofReal (Float.ofInt z1)]
    let t0 := t0.add ((t1.sub z1).mul projection)
    let (z0, stream) := gaussian (t0.getD 0 default).re s0 stream
    ((#[.ofReal (Float.ofInt z0)], z1), stream)
  | level + 1, .node projection low high, t0, t1, stream =>
    let (even, odd) := t1.split (level + 1)
    let ((even, odd), stream) := high.sample level even odd stream
    let z1 := Values.merge (level + 1) even odd
    let t0 := t0.add ((t1.sub z1).mul projection)
    let (even, odd) := t0.split (level + 1)
    let ((even, odd), stream) := low.sample level even odd stream
    ((Values.merge (level + 1) even odd, z1), stream)
  | _, _, t0, t1, stream => ((t0, t1), stream)

end Custody.Falcon
