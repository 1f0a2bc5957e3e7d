import Custody.Proofs.Envelope.Sealing

set_option autoImplicit false

/-! # Texts of keys are read back

What is printed of a key is read as the same scheme and bytes (`KeyText.parse_print`), and the text
of a private key as the key (`PrivateKey.WellFormed.ofText_toText`). -/

namespace Custody

/-! ## Hexadecimal digits -/

namespace Hex

/-- The byte of text that a digit is. -/
def digitByte (n : Nat) : UInt8 := (digit n).val.toUInt8

theorem utf8EncodeChar_digit : ∀ n < 16, String.utf8EncodeChar (digit n) = [digitByte n] := by
  decide

theorem value?_digitByte : ∀ n < 16, value? (digitByte n) = some n.toUInt8 := by
  decide

theorem digitAt_digitByte {n : Nat} (h : n < 16) (index : Nat) :
    digitAt index (digitByte n) = .ok n.toUInt8 := by
  unfold digitAt
  rw [value?_digitByte n h]

theorem decodePairs_flatMap (bytes : Bytes) (index : Nat) :
    decodePairs index
      (bytes.flatMap fun b => [digitByte (b.toNat / 16), digitByte (b.toNat % 16)]) =
        .ok bytes := by
  induction bytes generalizing index with
  | nil => rfl
  | cons b bytes ih =>
    have hb := b.toNat_lt
    have hbyte : 16 * (b.toNat / 16).toUInt8 + (b.toNat % 16).toUInt8 = b := by
      apply UInt8.toNat_inj.1
      simp
      omega
    rw [List.flatMap_cons, List.cons_append, List.cons_append, List.nil_append, decodePairs,
      digitAt_digitByte (by omega), digitAt_digitByte (by omega), ih]
    simp only [bind, Except.bind, pure, Except.pure, hbyte]

/-- Digits that were written are read back. -/
theorem decode_encode (bytes : Bytes) : decode (encode bytes) = .ok bytes := by
  have htext : Utf8.encode (encode bytes) =
      bytes.flatMap fun b => [digitByte (b.toNat / 16), digitByte (b.toNat % 16)] := by
    have hchars : Utf8.encode (encode bytes) =
        (encodeChars bytes).flatMap String.utf8EncodeChar := by
      unfold encode Utf8.encode
      simp [String.toUTF8, List.utf8Encode]
    rw [hchars, encodeChars, List.flatMap_assoc]
    congr 1
    funext b
    have hb := b.toNat_lt
    rw [List.flatMap_cons, List.flatMap_cons, List.flatMap_nil, utf8EncodeChar_digit _ (by omega),
      utf8EncodeChar_digit _ (by omega)]
    rfl
  have heven : (bytes.flatMap fun b =>
      [digitByte (b.toNat / 16), digitByte (b.toNat % 16)]).length = bytes.length * 2 := by
    simp [List.map_const']
  unfold decode decodeBytes
  rw [htext, if_neg (by omega), decodePairs_flatMap]

end Hex

/-! ## Texts -/

namespace KeyText

theorem strip?_append (front text : List Char) : strip? front (front ++ text) = some text := by
  induction front with
  | nil => rfl
  | cons c front ih =>
    rw [List.cons_append, strip?, if_pos rfl, ih]

/-- What follows the kind and the scheme of a text is read as digits. -/
theorem parse_digits (kind : Kind) (keyType : KeyType) (digits : List Char) :
    parse kind (kind.word ++ "_" ++ keyType.text ++ "_" ++ String.ofList digits) =
      match Hex.decode (String.ofList digits) with
      | .error fault => .error (.hex fault)
      | .ok bytes => .ok (keyType, bytes) := by
  have htext : (kind.word ++ "_" ++ keyType.text ++ "_" ++ String.ofList digits).toList =
      (kind.word.toList ++ ['_']) ++ (keyType.text.toList ++ '_' :: digits) := by
    simp [String.toList_append]
  have hall : keyType.text.toList.all (· != '_') = true := by
    cases keyType <;> rfl
  have hname : ∀ c ∈ keyType.text.toList, (c != '_') = true := List.all_eq_true.1 hall
  have htype : keyType.text.toList ≠ [] ∧ KeyType.ofText? keyType.text = some keyType := by
    cases keyType <;> decide
  unfold parse
  rw [htext, strip?_append]
  simp only [List.takeWhile_append_of_pos hname, List.dropWhile_append_of_pos hname]
  have hunderscore : ('_' != '_') = false := by decide
  rcases hdecode : Hex.decode (String.ofList digits) with fault | bytes <;>
    simp only [List.takeWhile_cons, List.dropWhile_cons, hunderscore, Bool.false_eq_true, if_false,
      List.append_nil, if_neg htype.1, htype.2, String.ofList_toList, hdecode]

/-- What was printed is read back. -/
theorem parse_print (kind : Kind) (keyType : KeyType) (bytes : Bytes) :
    parse kind (print kind keyType bytes) = .ok (keyType, bytes) := by
  have hdigits := parse_digits kind keyType (Hex.encodeChars bytes)
  rw [← Hex.encode, Hex.decode_encode] at hdigits
  exact hdigits

end KeyText

namespace PrivateKey

variable [Suite]

/-- The text of a key is read as the key. -/
theorem WellFormed.ofText_toText {key : PrivateKey} (h : key.WellFormed) :
    ofText key.toText = .ok key := by
  unfold ofText toText
  rw [KeyText.parse_print]
  exact h.ofSecretBytes_secretBytes

end PrivateKey

end Custody
