import Custody.Bytes

set_option autoImplicit false

/-! # Reading UTF-8

Strict decoding with the place and extent of the first fault, and the division of any byte string
into characters and faulty pieces. -/

namespace Custody.Utf8

/-- What the bytes at one place are. -/
inductive Piece
  /-- A character of the given width. -/
  | char (c : Char) (width : Nat)
  /-- Bytes that start no character: `width` of them are passed over. -/
  | fault (width : Nat)
  /-- The input ends within a character. -/
  | cut

/-- Whether a byte continues a character. -/
def isContinuation (b : UInt8) : Bool := 0x80 ≤ b && b ≤ 0xbf

/-- The range of the second byte of a character of three or four bytes. -/
def secondByteFits (first second : UInt8) : Bool :=
  if first == 0xe0 then 0xa0 ≤ second && second ≤ 0xbf
  else if first == 0xed then 0x80 ≤ second && second ≤ 0x9f
  else if first == 0xf0 then 0x90 ≤ second && second ≤ 0xbf
  else if first == 0xf4 then 0x80 ≤ second && second ≤ 0x8f
  else isContinuation second

/-- The six low bits of a byte. -/
def low6 (b : UInt8) : Nat := b.toNat % 64

/-- The piece that starts with a byte, given the bytes after it. -/
def piece (first : UInt8) (rest : Bytes) : Piece :=
  if first < 0x80 then .char (Char.ofNat first.toNat) 1
  else if first < 0xc2 || 0xf4 < first then .fault 1
  else
    match rest with
    | [] => .cut
    | second :: rest =>
      if first < 0xe0 then
        if isContinuation second then
          .char (Char.ofNat (first.toNat % 32 * 64 + low6 second)) 2
        else .fault 1
      else if !secondByteFits first second then .fault 1
      else
        match rest with
        | [] => .cut
        | third :: rest =>
          if !isContinuation third then .fault 2
          else if first < 0xf0 then
            .char (Char.ofNat ((first.toNat % 16 * 64 + low6 second) * 64 + low6 third)) 3
          else
            match rest with
            | [] => .cut
            | fourth :: _ =>
              if !isContinuation fourth then .fault 3
              else
                .char (Char.ofNat
                  (((first.toNat % 8 * 64 + low6 second) * 64 + low6 third) * 64 + low6 fourth)) 4

/-- A character, or bytes that are none. -/
inductive Segment
  | char (c : Char)
  | invalid (bytes : Bytes)

/-- Divide a byte string into characters and faulty pieces. -/
def segments : Bytes → List Segment
  | [] => []
  | first :: rest =>
    match piece first rest with
    | .char c width => .char c :: segments (rest.drop (width - 1))
    | .fault width => .invalid ((first :: rest).take width) :: segments (rest.drop (width - 1))
    | .cut => [.invalid (first :: rest)]
termination_by bytes => bytes.length
decreasing_by
  all_goals
    simp only [List.length_drop, List.length_cons]
    omega

/-- Where decoding fails: the index, and how many bytes are wrong there; none if the input ends
    within a character. -/
structure Fault where
  index : Nat
  width : Option Nat
  deriving DecidableEq, Repr

def Fault.message (fault : Fault) : String :=
  match fault.width with
  | some width =>
    "invalid utf-8 sequence of " ++ toString width ++ " bytes from index " ++ toString fault.index
  | none => "incomplete utf-8 byte sequence from index " ++ toString fault.index

/-- The first fault of a byte string that starts at an index. -/
def firstFault (index : Nat) : Bytes → Fault
  | [] => ⟨index, none⟩
  | first :: rest =>
    match piece first rest with
    | .char _ width => firstFault (index + width) (rest.drop (width - 1))
    | .fault width => ⟨index, some width⟩
    | .cut => ⟨index, none⟩
termination_by bytes => bytes.length
decreasing_by
  simp only [List.length_drop, List.length_cons]
  omega

/-- The text of a byte string, or its first fault. -/
def decode (bytes : Bytes) : Except Fault String :=
  match String.fromUTF8? ⟨bytes.toArray⟩ with
  | some text => .ok text
  | none => .error (firstFault 0 bytes)

/-- The bytes of a text. -/
def encode (text : String) : Bytes := text.toUTF8.data.toList

theorem decode_encode (text : String) : decode (encode text) = .ok text := by
  have h : (⟨(encode text).toArray⟩ : ByteArray) = text.toByteArray := by
    simp [encode, String.toUTF8]
  simp [decode, h, String.fromUTF8?, text.isValidUTF8, String.fromUTF8]

theorem eq_encode_of_decode {bytes : Bytes} {text : String} (h : decode bytes = .ok text) :
    bytes = encode text := by
  unfold decode String.fromUTF8? at h
  split at h
  · rename_i t heq
    split at heq
    · simp only [Option.some.injEq, Except.ok.injEq] at heq h
      subst heq
      subst h
      simp [encode, String.fromUTF8, String.toUTF8]
    · simp at heq
  · simp at h

end Custody.Utf8
