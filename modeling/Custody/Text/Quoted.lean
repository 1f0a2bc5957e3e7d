import Custody.Text.Unprintable
import Custody.Text.Utf8

set_option autoImplicit false

/-! # Quoted text

How names, paths and characters appear inside messages: between quotes, with a backslash before the
quote and the backslash itself, short escapes for the usual controls, the number of any other
character that has no shape of its own, and the value of any byte that belongs to no character. -/

namespace Custody.Text

/-- The digits of a number to a base of at most 16, in lower case. -/
def digits (base n : Nat) : List Char := Nat.toDigits base n

/-- A character inside quotes of the given kind. -/
def escapeChar (quote c : Char) : List Char :=
  match c with
  | '\x00' => ['\\', '0']
  | '\t' => ['\\', 't']
  | '\n' => ['\\', 'n']
  | '\r' => ['\\', 'r']
  | '\\' => ['\\', '\\']
  | c =>
    if c = quote then ['\\', c]
    else if isUnprintable c then ['\\', 'u', '\x7b'] ++ digits 16 c.toNat ++ ['\x7d']
    else [c]

/-- A byte that belongs to no character: two upper-case digits. -/
def escapeByte (b : UInt8) : List Char :=
  let two := if b < 16 then '0' :: digits 16 b.toNat else digits 16 b.toNat
  ['\\', 'x'] ++ two.map Char.toUpper

/-- A text between double quotes. -/
def quote (text : String) : String :=
  String.ofList ('"' :: text.toList.flatMap (escapeChar '"') ++ ['"'])

/-- A character between single quotes. -/
def quoteChar (c : Char) : String := String.ofList ('\x27' :: escapeChar '\x27' c ++ ['\x27'])

/-- A byte string between double quotes, read as UTF-8 as far as it is. -/
def quoteBytes (bytes : Bytes) : String :=
  let shown : Utf8.Segment → List Char
    | .char c => escapeChar '"' c
    | .invalid bytes => bytes.flatMap escapeByte
  String.ofList ('"' :: (Utf8.segments bytes).flatMap shown ++ ['"'])

/-- A byte string as text, with a replacement character for each faulty piece. -/
def lossy (bytes : Bytes) : String :=
  let shown : Utf8.Segment → Char
    | .char c => c
    | .invalid _ => '\ufffd'
  String.ofList ((Utf8.segments bytes).map shown)

end Custody.Text
