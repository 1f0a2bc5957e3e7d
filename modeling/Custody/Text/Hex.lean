import Custody.Text.Quoted

set_option autoImplicit false

/-! # Hexadecimal text

Bytes are written as two lower-case digits each and read from digits of either case. -/

namespace Custody.Hex

/-- The digit of a value below 16. -/
def digit (n : Nat) : Char := Nat.digitChar n

/-- The digits of a byte string. -/
def encodeChars (bytes : Bytes) : List Char :=
  bytes.flatMap fun b => [digit (b.toNat / 16), digit (b.toNat % 16)]

/-- Bytes as lower-case hexadecimal text. -/
def encode (bytes : Bytes) : String := String.ofList (encodeChars bytes)

/-- Why a text is not hexadecimal. -/
inductive Fault
  | oddLength
  /-- A byte of the text that is no digit, as the character of the same number. -/
  | invalidCharacter (c : Char) (index : Nat)
  deriving DecidableEq, Repr

def Fault.message : Fault → String
  | .oddLength => "Odd number of digits"
  | .invalidCharacter c index =>
    "Invalid character " ++ Text.quoteChar c ++ " at position " ++ toString index

/-- The value of a digit, given as a byte of text. -/
def value? (b : UInt8) : Option UInt8 :=
  if 0x30 ≤ b && b ≤ 0x39 then some (b - 0x30)
  else if 0x61 ≤ b && b ≤ 0x66 then some (b - 0x57)
  else if 0x41 ≤ b && b ≤ 0x46 then some (b - 0x37)
  else none

/-- The value of the digit at an index. -/
def digitAt (index : Nat) (b : UInt8) : Except Fault UInt8 :=
  match value? b with
  | some v => .ok v
  | none => .error (.invalidCharacter (Char.ofNat b.toNat) index)

/-- Read pairs of digits, the first of them at an index. -/
def decodePairs (index : Nat) : Bytes → Except Fault Bytes
  | high :: low :: rest => do
    let h ← digitAt index high
    let l ← digitAt (index + 1) low
    let tail ← decodePairs (index + 2) rest
    return (16 * h + l) :: tail
  | _ => .ok []

/-- Read the bytes of a text. An odd number of bytes is refused first. -/
def decodeBytes (text : Bytes) : Except Fault Bytes :=
  if text.length % 2 = 1 then .error .oddLength else decodePairs 0 text

/-- Read hexadecimal text. -/
def decode (text : String) : Except Fault Bytes := decodeBytes (Utf8.encode text)

end Custody.Hex
