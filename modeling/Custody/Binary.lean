import Custody.Text.Utf8

set_option autoImplicit false

/-! # Binary layouts

The layout that transactions, signatures and wallet files share: little-endian numbers of fixed
width, a length of eight bytes before every text, byte string and list, and fixed-length blocks
without one. A decoder takes what it needs from the front and returns the rest, so that whatever
follows a value is left alone. -/

namespace Custody.Binary

/-! ## Faults -/

/-- Why bytes are no value. -/
inductive Fault
  /-- The bytes end within a number, a block, a byte string or a list. -/
  | endOfInput
  /-- A text is declared longer than the bytes that are left. -/
  | textBeyondEnd
  /-- A tag that stands for none of two cases. -/
  | unknownTag (found : UInt32)
  | text (fault : Utf8.Fault)
  deriving DecidableEq, Repr

def Fault.message : Fault → String
  | .endOfInput => "io error: unexpected end of file"
  | .textBeyondEnd => "io error: "
  | .unknownTag found =>
    "invalid value: integer \x60" ++ toString found ++ "\x60, expected variant index 0 <= i < 2"
  | .text fault => "string is not valid utf8: " ++ fault.message

/-- Reads a value from the front of some bytes and returns the rest. -/
abbrev Decoder (α : Type) := Bytes → Except Fault (α × Bytes)

/-! ## Writing -/

def encodeUInt32 (n : UInt32) : Bytes := Bytes.ofNat 4 n.toNat

def encodeUInt64 (n : UInt64) : Bytes := Bytes.ofNat 8 n.toNat

def encodeLength (n : Nat) : Bytes := Bytes.ofNat 8 n

def encodeBytes (bytes : Bytes) : Bytes := encodeLength bytes.length ++ bytes

def encodeText (text : String) : Bytes := encodeBytes (Utf8.encode text)

def encodeList {α : Type} (encode : α → Bytes) (xs : List α) : Bytes :=
  encodeLength xs.length ++ xs.flatMap encode

/-! ## Reading -/

/-- Exactly `n` bytes, or the given fault. -/
def decodeExactly (n : Nat) (fault : Fault) : Decoder Bytes := fun bytes =>
  let (front, rest) := bytes.splitAt n
  if front.length = n then .ok (front, rest) else .error fault

def decodeNat (width : Nat) : Decoder Nat := fun bytes => do
  let (front, rest) ← decodeExactly width .endOfInput bytes
  return (Bytes.toNat front, rest)

def decodeUInt32 : Decoder UInt32 := fun bytes => do
  let (n, rest) ← decodeNat 4 bytes
  return (UInt32.ofNat n, rest)

def decodeUInt64 : Decoder UInt64 := fun bytes => do
  let (n, rest) ← decodeNat 8 bytes
  return (UInt64.ofNat n, rest)

def decodeBlock (n : Nat) : Decoder (Block n) := fun bytes => do
  let (front, rest) ← decodeExactly n .endOfInput bytes
  match Block.ofBytes? n front with
  | some block => return (block, rest)
  | none => throw .endOfInput

def decodeBytes : Decoder Bytes := fun bytes => do
  let (n, rest) ← decodeNat 8 bytes
  decodeExactly n .endOfInput rest

def decodeText : Decoder String := fun bytes => do
  let (n, rest) ← decodeNat 8 bytes
  let (front, rest) ← decodeExactly n .textBeyondEnd rest
  match Utf8.decode front with
  | .ok text => return (text, rest)
  | .error fault => throw (.text fault)

/-- A number of values one after the other, added to those that were read before. -/
def decodeMany {α : Type} (decode : Decoder α) : Nat → List α → Decoder (List α)
  | 0, acc, bytes => .ok (acc.reverse, bytes)
  | count + 1, acc, bytes =>
    match decode bytes with
    | .ok (x, rest) => decodeMany decode count (x :: acc) rest
    | .error fault => .error fault

def decodeList {α : Type} (decode : Decoder α) : Decoder (List α) := fun bytes => do
  let (n, rest) ← decodeNat 8 bytes
  decodeMany decode n [] rest

/-- The value at the front of some bytes; what follows is of no account. -/
def Decoder.run {α : Type} (decode : Decoder α) (bytes : Bytes) : Except Fault α :=
  (decode bytes).map Prod.fst

end Custody.Binary
