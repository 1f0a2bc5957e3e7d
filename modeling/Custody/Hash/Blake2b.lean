import Custody.Bytes.Words

set_option autoImplicit false

/-! # BLAKE2b

The unkeyed BLAKE2b hash of RFC 7693 for any digest length up to 64 bytes, and the long digest that
Argon2 builds from it. -/

namespace Custody.Blake2b

/-- The starting words, shared with SHA-512. -/
def initial : Array UInt64 := #[
  0x6a09e667f3bcc908, 0xbb67ae8584caa73b, 0x3c6ef372fe94f82b, 0xa54ff53a5f1d36f1,
  0x510e527fade682d1, 0x9b05688c2b3e6c1f, 0x1f83d9abfb41bd6b, 0x5be0cd19137e2179]

/-- The order in which each round reads the message words. -/
def schedule : Array (Array Nat) := #[
  #[0, 1, 2, 3, 4, 5, 6, 7, 8, 9, 10, 11, 12, 13, 14, 15],
  #[14, 10, 4, 8, 9, 15, 13, 6, 1, 12, 0, 2, 11, 7, 5, 3],
  #[11, 8, 12, 0, 5, 2, 15, 13, 10, 14, 3, 6, 7, 1, 9, 4],
  #[7, 9, 3, 1, 13, 12, 11, 14, 2, 6, 5, 10, 4, 0, 15, 8],
  #[9, 0, 5, 7, 2, 4, 10, 15, 14, 1, 11, 12, 6, 8, 3, 13],
  #[2, 12, 6, 10, 0, 11, 8, 3, 4, 13, 7, 5, 15, 14, 1, 9],
  #[12, 5, 1, 15, 14, 13, 4, 10, 0, 7, 6, 3, 9, 2, 8, 11],
  #[13, 11, 7, 14, 12, 1, 3, 9, 5, 0, 15, 4, 8, 6, 2, 10],
  #[6, 15, 14, 9, 11, 3, 0, 8, 12, 2, 13, 7, 1, 4, 10, 5],
  #[10, 2, 8, 4, 7, 6, 1, 5, 15, 11, 9, 14, 3, 12, 13, 0],
  #[0, 1, 2, 3, 4, 5, 6, 7, 8, 9, 10, 11, 12, 13, 14, 15],
  #[14, 10, 4, 8, 9, 15, 13, 6, 1, 12, 0, 2, 11, 7, 5, 3]]

/-- Mix two message words into four of the working words. -/
def mix (v : Array UInt64) (quarter : Nat × Nat × Nat × Nat) (x y : UInt64) : Array UInt64 :=
  let (ia, ib, ic, id) := quarter
  let a := v.getD ia 0 + v.getD ib 0 + x
  let d := rotateRight (v.getD id 0 ^^^ a) 32
  let c := v.getD ic 0 + d
  let b := rotateRight (v.getD ib 0 ^^^ c) 24
  let a := a + b + y
  let d := rotateRight (d ^^^ a) 16
  let c := c + d
  let b := rotateRight (b ^^^ c) 63
  (((v.setIfInBounds ia a).setIfInBounds ib b).setIfInBounds ic c).setIfInBounds id d

/-- Take one block into the chain. `taken` counts the message bytes up to its end. -/
def absorb (h m : Array UInt64) (taken : Nat) (isLast : Bool) : Array UInt64 :=
  let v := h ++ initial
  let v := v.modify 12 (· ^^^ taken.toUInt64)
  let v := v.modify 13 (· ^^^ (taken / UInt64.size).toUInt64)
  let v := if isLast then v.modify 14 (~~~ ·) else v
  let v := schedule.foldl (fun v order =>
    (quarters.zipIdx).foldl (fun v (quarter, i) =>
      mix v quarter (m.getD (order.getD (2 * i) 0) 0) (m.getD (order.getD (2 * i + 1) 0) 0)) v) v
  Array.ofFn (n := 8) fun i => h.getD i.val 0 ^^^ v.getD i.val 0 ^^^ v.getD (i.val + 8) 0

/-- The little-endian bytes of words. -/
def bytes (words : Array UInt64) : Bytes :=
  words.toList.flatMap fun w => Bytes.ofNat 8 w.toNat

/-- The digest of a message, `length` bytes long and at most 64. -/
def hash (length : Nat) (message : Bytes) : Bytes :=
  let blocks := max 1 ((message.length + 127) / 128)
  let input := littleEndianWords (message ++ List.replicate (128 * blocks - message.length) 0)
  let start := initial.modify 0 (· ^^^ (0x01010000 + length).toUInt64)
  let final := (List.range blocks).foldl (fun h i =>
    let isLast := i + 1 = blocks
    absorb h (input.extract (16 * i) (16 * i + 16))
      (if isLast then message.length else 128 * (i + 1)) isLast) start
  (bytes final).take length

/-- Append to `out` the first halves of a chain of digests, and at last a whole one of the length
    that is left. -/
def chain : Nat → Bytes → Nat → List Bytes → List Bytes
  | 0, digest, left, out => hash left digest :: out
  | steps + 1, digest, left, out =>
    let next := hash 64 digest
    chain steps next (left - 32) (next.take 32 :: out)

/-- A digest of any length: the length is hashed in front of the message, and a digest longer than
    64 bytes is built from a chain of digests. -/
def longHash (length : Nat) (message : Bytes) : Bytes :=
  let input := Bytes.ofNat 4 length ++ message
  if length ≤ 64 then hash length input
  else
    let first := hash 64 input
    let steps := (length + 31) / 32 - 3
    (chain steps first (length - 32) [first.take 32]).reverse.flatten

end Custody.Blake2b
