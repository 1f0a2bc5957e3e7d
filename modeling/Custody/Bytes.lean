set_option autoImplicit false

/-! # Byte strings

Everything that is hashed, sealed, signed or written to a file is a list of bytes. This file has
the byte strings of a fixed length, the little-endian form of a number and the byte-wise exclusive
or, each with the small laws that the formats and ciphers rest on: `Bytes.ofNat_toNat` and
`Bytes.xor_xor_cancel`. -/

namespace Custody

/-- A byte string. -/
abbrev Bytes := List UInt8

/-- A byte string of exactly `n` bytes. -/
abbrev Block (n : Nat) := { bytes : Bytes // bytes.length = n }

/-- The byte string as a block, if it has the block's length. -/
def Block.ofBytes? (n : Nat) (bytes : Bytes) : Option (Block n) :=
  if h : bytes.length = n then some ⟨bytes, h⟩ else none

/-- The first `n` bytes, filled up with zero bytes where there are fewer. -/
def Block.fit (n : Nat) (bytes : Bytes) : Block n :=
  ⟨(bytes ++ List.replicate n 0).take n, by simp⟩

instance (n : Nat) : Inhabited (Block n) := ⟨Block.fit n []⟩

theorem Block.ofBytes?_eq_some_iff {n : Nat} {bytes : Bytes} {block : Block n} :
    Block.ofBytes? n bytes = some block ↔ block.val = bytes := by
  unfold Block.ofBytes?
  split
  · rename_i h
    simp [Subtype.ext_iff, eq_comm]
  · rename_i h
    simp only [reduceCtorEq, false_iff]
    intro heq
    exact h (heq ▸ block.property)

/-! ## Little-endian numbers -/

/-- The `width` low bytes of a number, the least significant first. -/
def Bytes.ofNat : Nat → Nat → Bytes
  | 0, _ => []
  | width + 1, n => UInt8.ofNat n :: Bytes.ofNat width (n / 256)

/-- The number that a byte string stands for, its first byte the least significant. -/
def Bytes.toNat : Bytes → Nat
  | [] => 0
  | b :: rest => b.toNat + 256 * Bytes.toNat rest

@[simp] theorem Bytes.length_ofNat (width n : Nat) : (Bytes.ofNat width n).length = width := by
  induction width generalizing n with
  | zero => rfl
  | succ width ih => simp [Bytes.ofNat, ih]

theorem Bytes.ofNat_toNat (bytes : Bytes) : Bytes.ofNat bytes.length bytes.toNat = bytes := by
  induction bytes with
  | nil => rfl
  | cons b rest ih =>
    have hb := b.toNat_lt
    have hlow : UInt8.ofNat (b.toNat + 256 * Bytes.toNat rest) = b := by
      apply UInt8.toNat_inj.1
      simp only [UInt8.toNat_ofNat']
      omega
    have hhigh : (b.toNat + 256 * Bytes.toNat rest) / 256 = Bytes.toNat rest := by omega
    simp only [List.length_cons, Bytes.toNat, Bytes.ofNat, hlow, hhigh, ih]

/-! ## Exclusive or -/

/-- Byte-wise exclusive or, as long as the shorter of the two. -/
def Bytes.xor (a b : Bytes) : Bytes := List.zipWith (· ^^^ ·) a b

/-- A mask that covers the whole text takes itself away when applied again. -/
theorem Bytes.xor_xor_cancel (text mask : Bytes) (h : text.length ≤ mask.length) :
    Bytes.xor (Bytes.xor text mask) mask = text := by
  induction text generalizing mask with
  | nil => rfl
  | cons t text ih =>
    cases mask with
    | nil => simp at h
    | cons m mask =>
      have hrest := ih mask (by simpa using h)
      simp only [Bytes.xor, List.zipWith_cons_cons] at hrest ⊢
      rw [hrest, UInt8.xor_assoc, UInt8.xor_self, UInt8.xor_zero]

end Custody
