import Custody.Bytes

set_option autoImplicit false

/-! # Words of 64 bits

What several of the hashes do with words: read them from bytes, rotate them, and mix the sixteen of a
square by its columns and diagonals. The stream cipher mixes its words of 32 bits in the same order. -/

namespace Custody

/-- The little-endian words of a byte string of whole words. -/
def littleEndianWords (bytes : Bytes) : Array UInt64 :=
  let step := fun (acc : Array UInt64 × UInt64 × UInt64) (b : UInt8) =>
    let value := acc.2.1 ||| (b.toUInt64 <<< acc.2.2)
    if acc.2.2 = 56 then (acc.1.push value, 0, 0) else (acc.1, value, acc.2.2 + 8)
  (bytes.foldl step (#[], 0, 0)).1

/-- Rotation to the right, by more than 0 and less than 64. -/
@[inline] def rotateRight (x n : UInt64) : UInt64 := (x >>> n) ||| (x <<< (64 - n))

/-- The places of a square of sixteen words that are mixed together: the columns, then the
    diagonals. -/
def quarters : List (Nat × Nat × Nat × Nat) :=
  [(0, 4, 8, 12), (1, 5, 9, 13), (2, 6, 10, 14), (3, 7, 11, 15),
    (0, 5, 10, 15), (1, 6, 11, 12), (2, 7, 8, 13), (3, 4, 9, 14)]

end Custody
