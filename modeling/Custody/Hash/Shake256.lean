import Custody.Bytes.Words

set_option autoImplicit false

/-! # SHAKE256

The extendable-output function of FIPS 202: a sponge over the permutation of 25 lanes of 64 bits,
with 136 bytes absorbed or squeezed at a time. `Shake256.hash` gives a digest of 32 bytes, and
`Shake256.Stream` the endless output that rejection sampling draws from. -/

namespace Custody.Shake256

/-! ## The permutation -/

/-- One constant for each of the 24 rounds. -/
def roundConstants : Array UInt64 := #[
  0x0000000000000001, 0x0000000000008082, 0x800000000000808a, 0x8000000080008000,
  0x000000000000808b, 0x0000000080000001, 0x8000000080008081, 0x8000000000008009,
  0x000000000000008a, 0x0000000000000088, 0x0000000080008009, 0x000000008000000a,
  0x000000008000808b, 0x800000000000008b, 0x8000000000008089, 0x8000000000008003,
  0x8000000000008002, 0x8000000000000080, 0x000000000000800a, 0x800000008000000a,
  0x8000000080008081, 0x8000000000008080, 0x0000000080000001, 0x8000000080008008]

/-- How far each lane is rotated. -/
def rotations : Array UInt64 := #[
  0, 1, 62, 28, 27, 36, 44, 6, 55, 20, 3, 10, 43,
  25, 39, 41, 45, 15, 21, 8, 18, 2, 61, 56, 14]

/-- Rotation to the left, by less than 64. -/
@[inline] def rotateLeft (x n : UInt64) : UInt64 :=
  if n = 0 then x else (x <<< n) ||| (x >>> (64 - n))

/-- The 25 lanes, the lane at column `x` and row `y` at index `x + 5 * y`. -/
abbrev Lanes := Array UInt64

/-- Mix into each lane the parities of its two neighbouring columns. -/
def theta (a : Lanes) : Lanes :=
  let parity : Array UInt64 := Array.ofFn (n := 5) fun x =>
    a.getD x.val 0 ^^^ a.getD (x.val + 5) 0 ^^^ a.getD (x.val + 10) 0 ^^^ a.getD (x.val + 15) 0
      ^^^ a.getD (x.val + 20) 0
  Array.ofFn (n := 25) fun i =>
    a.getD i.val 0 ^^^ parity.getD ((i.val + 4) % 5) 0
      ^^^ rotateLeft (parity.getD ((i.val + 1) % 5) 0) 1

/-- Rotate each lane and move it to its new place. -/
def rhoPi (a : Lanes) : Lanes :=
  Array.ofFn (n := 25) fun i =>
    let source := (i.val % 5 + 3 * (i.val / 5)) % 5 + 5 * (i.val % 5)
    rotateLeft (a.getD source 0) (rotations.getD source 0)

/-- Combine each lane with the next two of its row. -/
def chi (a : Lanes) : Lanes :=
  Array.ofFn (n := 25) fun i =>
    let row := 5 * (i.val / 5)
    a.getD i.val 0 ^^^ ((~~~ a.getD (row + (i.val + 1) % 5) 0) &&& a.getD (row + (i.val + 2) % 5) 0)

/-- The permutation: 24 rounds. -/
def permute (a : Lanes) : Lanes :=
  roundConstants.foldl (fun a constant => (chi (rhoPi (theta a))).modify 0 (· ^^^ constant)) a

/-! ## The sponge -/

/-- Bytes that one permutation takes in or gives out. -/
def rate : Nat := 136

/-- The message, closed by the byte 0x1f, zero bytes and a set top bit, in whole blocks. -/
def padded (message : Bytes) : Bytes :=
  let free := rate - message.length % rate
  if free = 1 then message ++ [0x9f]
  else message ++ 0x1f :: (List.replicate (free - 2) 0 ++ [0x80])

/-- The state after the whole message has been taken in. -/
def absorb (message : Bytes) : Lanes :=
  let input := littleEndianWords (padded message)
  (List.range (input.size / 17)).foldl
    (fun a block => permute
      (Array.ofFn (n := 25) fun i =>
        if i.val < 17 then a.getD i.val 0 ^^^ input.getD (17 * block + i.val) 0
        else a.getD i.val 0))
    (Array.replicate 25 0)

/-- The output, as far as it has been read: `position` bytes of the current block are used up. -/
structure Stream where
  lanes : Lanes
  position : Nat

/-- The whole output for a message. -/
def stream (message : Bytes) : Stream := ⟨absorb message, 0⟩

/-- The next byte of the output. -/
def Stream.next (s : Stream) : UInt8 × Stream :=
  let s := if s.position < rate then s else ⟨permute s.lanes, 0⟩
  let lane := s.lanes.getD (s.position / 8) 0
  ((lane >>> (8 * (s.position % 8)).toUInt64).toUInt8, ⟨s.lanes, s.position + 1⟩)

/-- The next bytes of the output, and what follows them. -/
def Stream.take (s : Stream) (count : Nat) : Bytes × Stream :=
  let out := (List.range count).foldl
    (fun (acc : Array UInt8 × Stream) _ => let r := acc.2.next; (acc.1.push r.1, r.2)) (#[], s)
  (out.1.toList, out.2)

/-- The first 32 bytes of the output. -/
def hash (message : Bytes) : Block 32 := Block.fit 32 ((stream message).take 32).1

end Custody.Shake256
