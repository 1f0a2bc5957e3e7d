import Custody.Bytes.Words

set_option autoImplicit false

/-! # ChaCha20

The block function of RFC 8439, the keystream made of its blocks, and HChaCha20, which turns a key
and the first part of a long nonce into a key for the rest. -/

namespace Custody.ChaCha20

/-- The sixteen words of the cipher's state. -/
abbrev State := Array UInt32

/-- The words "expand 32-byte k" that start every state. -/
def constants : State := #[0x61707865, 0x3320646e, 0x79622d32, 0x6b206574]

/-- The little-endian words of a byte string of whole words. -/
def words (bytes : Bytes) : State :=
  let step := fun (acc : Array UInt32 × UInt32 × UInt32) (b : UInt8) =>
    let value := acc.2.1 ||| (b.toUInt32 <<< acc.2.2)
    if acc.2.2 = 24 then (acc.1.push value, 0, 0) else (acc.1, value, acc.2.2 + 8)
  (bytes.foldl step (#[], 0, 0)).1

/-- The little-endian bytes of words. -/
def bytes (words : State) : Bytes := words.toList.flatMap fun w => Bytes.ofNat 4 w.toNat

/-- Rotation to the left, by more than 0 and less than 32. -/
@[inline] def rotateLeft (x n : UInt32) : UInt32 := (x <<< n) ||| (x >>> (32 - n))

/-- Mix four words of the state. -/
def quarterRound (s : State) (quarter : Nat × Nat × Nat × Nat) : State :=
  let (ia, ib, ic, id) := quarter
  let a := s.getD ia 0 + s.getD ib 0
  let d := rotateLeft (s.getD id 0 ^^^ a) 16
  let c := s.getD ic 0 + d
  let b := rotateLeft (s.getD ib 0 ^^^ c) 12
  let a := a + b
  let d := rotateLeft (d ^^^ a) 8
  let c := c + d
  let b := rotateLeft (b ^^^ c) 7
  (((s.setIfInBounds ia a).setIfInBounds ib b).setIfInBounds ic c).setIfInBounds id d

/-- Twenty rounds, two at a time. -/
def rounds (s : State) : State :=
  (List.range 10).foldl (fun s _ => quarters.foldl quarterRound s) s

/-- One block of the keystream. -/
def block (key : Block 32) (nonce : Block 12) (counter : Nat) : Block 64 :=
  let s := constants ++ words key.val ++ #[counter.toUInt32] ++ words nonce.val
  Block.fit 64 (bytes (Array.zipWith (· + ·) s (rounds s)))

/-- The keystream from block number `first` on, in whole blocks that cover `length` bytes. -/
def keystream (key : Block 32) (nonce : Block 12) (first length : Nat) : Bytes :=
  (List.range ((length + 63) / 64)).flatMap fun i => (block key nonce (first + i)).val

/-- The key for the second part of a long nonce. -/
def subkey (key : Block 32) (nonce : Block 16) : Block 32 :=
  let s := rounds (constants ++ words key.val ++ words nonce.val)
  Block.fit 32 (bytes (s.extract 0 4 ++ s.extract 12 16))

/-- The keystream is long enough for the text it covers. -/
theorem le_length_keystream (key : Block 32) (nonce : Block 12) (first length : Nat) :
    length ≤ (keystream key nonce first length).length := by
  have hblocks : ∀ xs : List Nat,
      (xs.flatMap fun i => (block key nonce (first + i)).val).length = 64 * xs.length := by
    intro xs
    induction xs with
    | nil => rfl
    | cons x xs ih =>
      rw [List.flatMap_cons, List.length_append, ih, (block key nonce (first + x)).property,
        List.length_cons]
      omega
  rw [keystream, hblocks, List.length_range]
  omega

end Custody.ChaCha20
