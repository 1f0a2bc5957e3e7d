import Custody.Proofs.Envelope.RoundTrip
import Custody.Proofs.Key.Signing
import Custody.Proofs.Wallet.Name

set_option autoImplicit false

/-! # The texts that are read

Exactly the texts of one form are read as keys and signatures (`KeyText.HasForm`), and the digits of
such a text may be of either case: it is printed again with its digits in lower case. What a program
has of keys and signatures is printed to texts that are read as the same. -/

namespace Custody

/-! ## Hexadecimal digits -/

namespace Hex

/-- Whether a character is a hexadecimal digit, of either case. -/
def isDigit (c : Char) : Bool :=
  ('0' ≤ c && c ≤ '9') || ('a' ≤ c && c ≤ 'f') || ('A' ≤ c && c ≤ 'F')

theorem lt_of_isDigit {c : Char} (h : isDigit c = true) : c.toNat < 128 := by
  unfold isDigit at h
  simp only [Bool.or_eq_true, Bool.and_eq_true, decide_eq_true_eq, Char.le_def,
    UInt32.le_iff_toNat_le] at h
  change ((48 ≤ c.toNat ∧ c.toNat ≤ 57) ∨ (97 ≤ c.toNat ∧ c.toNat ≤ 102)) ∨
    (65 ≤ c.toNat ∧ c.toNat ≤ 70) at h
  omega

/-- A digit is one byte of text, has a value, and is written for that value in lower case. -/
theorem exists_value_of_isDigit {c : Char} (h : isDigit c = true) :
    ∃ b v, String.utf8EncodeChar c = [b] ∧ value? b = some v ∧ v.toNat < 16 ∧
      digit v.toNat = c.toLower := by
  have hall : ∀ n < 128, isDigit (Char.ofNat n) = true →
      String.utf8EncodeChar (Char.ofNat n) = [n.toUInt8] ∧
      ((value? n.toUInt8).any fun v => decide (v.toNat < 16) &&
        decide (digit v.toNat = (Char.ofNat n).toLower)) = true := by
    decide +kernel
  obtain ⟨hbyte, hvalue⟩ := hall c.toNat (lt_of_isDigit h) (by rwa [Char.ofNat_toNat])
  rw [Char.ofNat_toNat] at hbyte hvalue
  obtain ⟨v, hv, hdigit⟩ := (Option.any_eq_true _ _).1 hvalue
  rw [Bool.and_eq_true, decide_eq_true_eq, decide_eq_true_eq] at hdigit
  exact ⟨_, v, hbyte, hv, hdigit⟩

/-- A character is a digit if all bytes of its text have a value. -/
theorem isDigit_of_values {c : Char}
    (h : ∀ b ∈ String.utf8EncodeChar c, (value? b).isSome = true) : isDigit c = true := by
  have hall : ∀ n < 128, (value? n.toUInt8).isSome = true → isDigit (Char.ofNat n) = true := by
    decide +kernel
  have hhigh : ∀ n < 64, value? (UInt8.ofNat (n + 128)) = none := by decide +kernel
  by_cases hascii : c.toNat < 128
  · have hbyte : UInt8.ofNat c.toNat ∈ String.utf8EncodeChar c := by
      unfold String.utf8EncodeChar
      dsimp only
      rw [if_pos (show c.val.toNat ≤ 127 from Nat.le_of_lt_succ hascii)]
      exact List.mem_singleton_self _
    have hdigit := hall c.toNat hascii (h _ hbyte)
    rwa [Char.ofNat_toNat] at hdigit
  · -- the last byte of any other character is above all digits
    have hlast : UInt8.ofNat (c.val.toNat % 64 + 128) ∈ String.utf8EncodeChar c := by
      unfold String.utf8EncodeChar
      dsimp only
      rw [if_neg (show ¬ c.val.toNat ≤ 127 from fun hle => hascii (Nat.lt_succ_of_le hle))]
      split
      · simp
      · split <;> simp
    have hsome := h _ hlast
    rw [hhigh _ (Nat.mod_lt _ (by decide))] at hsome
    exact absurd hsome (by simp)

theorem digitAt_eq_ok_iff {index : Nat} {b v : UInt8} :
    digitAt index b = .ok v ↔ value? b = some v := by
  unfold digitAt
  cases value? b <;> simp

/-- Pairs of digits are read only where there are digits. -/
theorem values_of_decodePairs {index : Nat} {text bytes : Bytes}
    (h : decodePairs index text = .ok bytes) (heven : text.length % 2 = 0) :
    ∀ b ∈ text, (value? b).isSome = true := by
  induction index, text using decodePairs.induct generalizing bytes with
  | case1 index high low rest ih =>
    rw [decodePairs] at h
    cases hhigh : digitAt index high with
    | error fault => exact absurd h (by simp [hhigh, bind, Except.bind])
    | ok v =>
      cases hlow : digitAt (index + 1) low with
      | error fault => exact absurd h (by simp [hhigh, hlow, bind, Except.bind])
      | ok w =>
        cases hrest : decodePairs (index + 2) rest with
        | error fault => exact absurd h (by simp [hhigh, hlow, hrest, bind, Except.bind])
        | ok tail =>
          have hvalues := ih hrest (by simp only [List.length_cons] at heven; omega)
          rw [digitAt_eq_ok_iff] at hhigh hlow
          intro b hb
          rcases List.mem_cons.1 hb with rfl | hb
          · rw [hhigh]
            rfl
          · rcases List.mem_cons.1 hb with rfl | hb
            · rw [hlow]
              rfl
            · exact hvalues b hb
  | case2 text index hshort =>
    -- a text of fewer than two bytes and even length is empty
    rcases text with _ | ⟨b, _ | ⟨b', rest⟩⟩
    · simp
    · exact absurd heven (by simp)
    · exact absurd rfl (hshort b b' rest)

/-- Digits are read in pairs, and are those of the bytes in lower case. -/
theorem exists_decodePairs {digits : List Char} (hdigits : ∀ c ∈ digits, isDigit c = true)
    (heven : digits.length % 2 = 0) (index : Nat) :
    ∃ bytes, decodePairs index (digits.flatMap String.utf8EncodeChar) = .ok bytes ∧
      encodeChars bytes = digits.map Char.toLower := by
  match digits with
  | [] => exact ⟨[], rfl, rfl⟩
  | [c] => exact absurd heven (by simp)
  | c :: d :: rest =>
    simp only [List.forall_mem_cons] at hdigits
    obtain ⟨hc, hd, hrest⟩ := hdigits
    obtain ⟨tail, htail, hlower⟩ := exists_decodePairs hrest
      (by simp only [List.length_cons] at heven; omega) (index + 2)
    obtain ⟨b, v, hb, hv, hv16, hcv⟩ := exists_value_of_isDigit hc
    obtain ⟨b', w, hb', hw, hw16, hdw⟩ := exists_value_of_isDigit hd
    have hbyte : (16 * v + w).toNat = 16 * v.toNat + w.toNat := by
      simp
      omega
    refine ⟨(16 * v + w) :: tail, ?_, ?_⟩
    · rw [List.flatMap_cons, List.flatMap_cons, hb, hb', List.singleton_append,
        List.singleton_append, decodePairs, digitAt_eq_ok_iff.2 hv, digitAt_eq_ok_iff.2 hw, htail]
      rfl
    · unfold encodeChars at hlower ⊢
      rw [List.flatMap_cons, hbyte, hlower, List.map_cons, List.map_cons, ← hcv, ← hdw,
        show (16 * v.toNat + w.toNat) / 16 = v.toNat by omega,
        show (16 * v.toNat + w.toNat) % 16 = w.toNat by omega]
      rfl

theorem length_encodeChars (bytes : Bytes) : (encodeChars bytes).length = 2 * bytes.length := by
  unfold encodeChars
  simp [List.map_const', Nat.mul_comm]

theorem encodeChars_injective {bytes bytes' : Bytes} (h : encodeChars bytes = encodeChars bytes') :
    bytes = bytes' := by
  have hdecode := decode_encode bytes
  rw [encode, h, ← encode, decode_encode] at hdecode
  exact (Except.ok.inj hdecode).symm

/-- Every digit is one byte of text. -/
theorem length_flatMap_of_isDigit {digits : List Char} (h : ∀ c ∈ digits, isDigit c = true) :
    (digits.flatMap String.utf8EncodeChar).length = digits.length := by
  induction digits with
  | nil => rfl
  | cons c rest ih =>
    obtain ⟨b, -, hb, -⟩ := exists_value_of_isDigit (h c List.mem_cons_self)
    rw [List.flatMap_cons, hb, List.singleton_append, List.length_cons, List.length_cons,
      ih fun d hd => h d (List.mem_cons_of_mem c hd)]

/-- A text of an odd number of bytes is refused, and any other is read in pairs. -/
theorem decode_eq_ok_iff_decodePairs {text : String} {bytes : Bytes} : decode text = .ok bytes ↔
    (text.toList.flatMap String.utf8EncodeChar).length % 2 = 0 ∧
      decodePairs 0 (text.toList.flatMap String.utf8EncodeChar) = .ok bytes := by
  unfold decode decodeBytes
  rw [Utf8.encode_eq_flatMap]
  split
  · rename_i hodd
    exact iff_of_false (by simp) fun h => by omega
  · rename_i hodd
    rw [and_iff_right (Nat.mod_two_ne_one.1 hodd)]

/-- Bytes are read of a text exactly if it consists of digits, of either case, and it is what is
    written of the bytes but for the case. -/
theorem decode_eq_ok_iff {text : String} {bytes : Bytes} : decode text = .ok bytes ↔
    (∀ c ∈ text.toList, isDigit c = true) ∧ encodeChars bytes = text.toList.map Char.toLower := by
  have hread : (∀ c ∈ text.toList, isDigit c = true) → text.toList.length % 2 = 0 →
      ∃ bytes, decode text = .ok bytes ∧ encodeChars bytes = text.toList.map Char.toLower := by
    intro hdigits heven
    obtain ⟨bytes, hbytes, hlower⟩ := exists_decodePairs hdigits heven 0
    rw [← length_flatMap_of_isDigit hdigits] at heven
    exact ⟨bytes, decode_eq_ok_iff_decodePairs.2 ⟨heven, hbytes⟩, hlower⟩
  constructor
  · intro h
    obtain ⟨heven, hpairs⟩ := decode_eq_ok_iff_decodePairs.1 h
    have hdigits : ∀ c ∈ text.toList, isDigit c = true := fun c hc =>
      isDigit_of_values fun b hb =>
        values_of_decodePairs hpairs heven b (List.mem_flatMap.2 ⟨c, hc, hb⟩)
    rw [length_flatMap_of_isDigit hdigits] at heven
    obtain ⟨bytes', hbytes', hlower⟩ := hread hdigits heven
    rw [h] at hbytes'
    cases hbytes'
    exact ⟨hdigits, hlower⟩
  · rintro ⟨hdigits, hlower⟩
    have hcount := congrArg List.length hlower
    rw [length_encodeChars, List.length_map] at hcount
    obtain ⟨bytes', hbytes', hlower'⟩ := hread hdigits (by omega)
    rw [hbytes', encodeChars_injective (hlower'.trans hlower.symm)]

end Hex

/-! ## Texts of one form -/

namespace KeyText

/-- The text is the word of the kind, the name of the scheme and hexadecimal digits, joined by
    underscores. -/
def HasForm (kind : Kind) (keyType : KeyType) (digits : List Char) (text : String) : Prop :=
  text = kind.word ++ "_" ++ keyType.text ++ "_" ++ String.ofList digits ∧
    ∀ c ∈ digits, Hex.isDigit c = true

theorem strip?_eq_some_iff {front text rest : List Char} :
    strip? front text = some rest ↔ text = front ++ rest := by
  constructor
  · intro h
    induction front generalizing text with
    | nil => exact Option.some.inj h
    | cons c front ih =>
      cases text with
      | nil => exact absurd h (by simp [strip?])
      | cons d text =>
        rw [strip?] at h
        split at h
        · rename_i hcd
          rw [hcd, ih h]
          rfl
        · exact absurd h (by simp)
  · rintro rfl
    exact strip?_append front rest

/-- Only its own name, or no name at all, stands for a scheme. -/
theorem eq_of_ofText?_eq_some {name : String} {keyType : KeyType} (hname : name ≠ "")
    (h : KeyType.ofText? name = some keyType) : name = keyType.text := by
  unfold KeyType.ofText? at h
  split at h
  · rename_i htext
    cases h
    exact htext.resolve_left hname
  · split at h
    · rename_i htext
      cases h
      exact htext
    · exact absurd h (by simp)

/-- The name of the scheme ends at the first underscore. -/
theorem eq_of_dropWhile_eq_cons {rest body : List Char} {c : Char}
    (h : rest.dropWhile (· != '_') = c :: body) :
    rest = rest.takeWhile (· != '_') ++ '_' :: body := by
  have hhead := List.head?_dropWhile_not (· != '_') rest
  rw [h] at hhead
  obtain rfl : c = '_' := by simpa using hhead
  rw [← h, List.takeWhile_append_dropWhile]

/-- A text is read exactly if it has the form, as the bytes that its digits are. -/
theorem parse_eq_ok_iff {kind : Kind} {text : String} {keyType : KeyType} {bytes : Bytes} :
    parse kind text = .ok (keyType, bytes) ↔
      ∃ digits, HasForm kind keyType digits text ∧
        Hex.encodeChars bytes = digits.map Char.toLower := by
  constructor
  · intro h
    unfold parse at h
    cases hstrip : strip? (kind.word.toList ++ ['_']) text.toList with
    | none => exact absurd h (by simp [hstrip])
    | some rest =>
      rw [hstrip] at h
      dsimp only at h
      rw [strip?_eq_some_iff] at hstrip
      cases hdrop : rest.dropWhile (· != '_') with
      | nil => exact absurd h (by simp [hdrop])
      | cons underscore body =>
        have hrest := eq_of_dropWhile_eq_cons hdrop
        rw [hdrop] at h
        dsimp only at h
        split at h
        · exact absurd h (by simp)
        · rename_i hnonempty
          split at h
          · exact absurd h (by simp)
          · rename_i scheme hscheme
            split at h
            · exact absurd h (by simp)
            · rename_i bytes' hdecode
              cases h
              have hname := eq_of_ofText?_eq_some (by simpa using hnonempty) hscheme
              obtain ⟨hdigits, hlower⟩ := Hex.decode_eq_ok_iff.1 hdecode
              rw [String.toList_ofList] at hdigits hlower
              refine ⟨body, ⟨?_, hdigits⟩, hlower⟩
              apply String.toList_inj.1
              rw [hstrip, hrest, ← hname]
              simp [String.toList_append]
  · rintro ⟨digits, ⟨rfl, hdigits⟩, hlower⟩
    rw [parse_digits, Hex.decode_eq_ok_iff.2 (by simpa using ⟨hdigits, hlower⟩)]

/-! ## Reading and printing -/

/-- The second text is the first with its digits in lower case. -/
def LowerCased (kind : Kind) (text printed : String) : Prop :=
  ∃ keyType digits, HasForm kind keyType digits text ∧
    printed = kind.word ++ "_" ++ keyType.text ++ "_" ++ String.ofList (digits.map Char.toLower)

/-- Values of a kind are read from texts: a text is read as a value exactly if it is parsed as the
    value's scheme and bytes and these are acceptable. -/
def Reads {α : Type} (kind : Kind) (ofText : String → Except KeyFault α) (keyType : α → KeyType)
    (bytes : α → Bytes) (accepted : α → Prop) : Prop :=
  ∀ text a, ofText text = .ok a ↔ parse kind text = .ok (keyType a, bytes a) ∧ accepted a

namespace Reads

variable {α : Type} {kind : Kind} {ofText : String → Except KeyFault α} {keyType : α → KeyType}
  {bytes : α → Bytes} {accepted : α → Prop} {text : String} {a : α}

/-- Exactly the acceptable values are printed to texts that are read as the same. -/
theorem ofText_print_iff (h : Reads kind ofText keyType bytes accepted) :
    ofText (print kind (keyType a) (bytes a)) = .ok a ↔ accepted a := by
  rw [h, parse_print]
  simp

/-- A value is printed as the text that it was read from, in lower case. -/
theorem lowerCased (h : Reads kind ofText keyType bytes accepted) (hread : ofText text = .ok a) :
    LowerCased kind text (print kind (keyType a) (bytes a)) := by
  obtain ⟨digits, hform, hlower⟩ := parse_eq_ok_iff.1 ((h text a).1 hread).1
  refine ⟨keyType a, digits, hform, ?_⟩
  rw [print, Hex.encode, hlower]

/-- A text is read exactly if it has the form for an acceptable value. -/
theorem exists_ofText_iff (h : Reads kind ofText keyType bytes accepted) :
    (∃ a, ofText text = .ok a) ↔ ∃ a digits, HasForm kind (keyType a) digits text ∧
      Hex.encodeChars (bytes a) = digits.map Char.toLower ∧ accepted a := by
  refine exists_congr fun a => ?_
  rw [h, parse_eq_ok_iff]
  simp only [← exists_and_right, and_assoc]

end Reads

end KeyText

namespace Hex

/-- Digits stand for half as many bytes. -/
theorem length_of_encodeChars {bytes : Bytes} {digits : List Char}
    (h : encodeChars bytes = digits.map Char.toLower) : digits.length = 2 * bytes.length := by
  rw [← length_encodeChars, h, List.length_map]

/-- An even number of digits stands for bytes. -/
theorem exists_encodeChars {digits : List Char} (hdigits : ∀ c ∈ digits, isDigit c = true)
    (heven : digits.length % 2 = 0) :
    ∃ bytes, encodeChars bytes = digits.map Char.toLower := by
  obtain ⟨bytes, -, hlower⟩ := exists_decodePairs hdigits heven 0
  exact ⟨bytes, hlower⟩

/-- Twice `n` digits stand for a block of `n` bytes. -/
theorem exists_block {n : Nat} {digits : List Char} (hdigits : ∀ c ∈ digits, isDigit c = true)
    (hlength : digits.length = 2 * n) :
    ∃ block : Block n, encodeChars block.val = digits.map Char.toLower := by
  obtain ⟨bytes, hlower⟩ := exists_encodeChars hdigits (by omega)
  have := length_of_encodeChars hlower
  exact ⟨⟨bytes, by omega⟩, hlower⟩

end Hex

/-! ## Private keys -/

namespace PrivateKey

variable [Suite]

theorem reads_ofText :
    KeyText.Reads .privateKey ofText keyType secretBytes (WellFormed : PrivateKey → Prop) := by
  intro text key
  constructor
  · intro h
    have hmade := wellFormed_of_ofText h
    unfold ofText at h
    cases hparse : KeyText.parse .privateKey text with
    | error fault => exact absurd h (by simp [hparse, bind, Except.bind])
    | ok parsed =>
      obtain ⟨scheme, bytes⟩ := parsed
      rw [hparse] at h
      obtain ⟨rfl, rfl⟩ := eq_of_ofSecretBytes h
      exact ⟨rfl, hmade⟩
  · rintro ⟨hparse, hmade⟩
    unfold ofText
    rw [hparse]
    exact hmade.ofSecretBytes_secretBytes

/-- A text is read as a private key exactly if it has the form, with 64 or 4356 digits. -/
theorem exists_ofText_iff {text : String} : (∃ key, ofText text = .ok key) ↔
    (∃ digits, KeyText.HasForm .privateKey .ed25519 digits text ∧ digits.length = 64) ∨
    (∃ digits, KeyText.HasForm .privateKey .falcon512 digits text ∧ digits.length = 4356) := by
  rw [reads_ofText.exists_ofText_iff]
  constructor
  · rintro ⟨key, digits, hform, hlower, hmade⟩
    have hlength := Hex.length_of_encodeChars hlower
    rw [hmade.length_secretBytes] at hlength
    cases htype : key.keyType with
    | ed25519 =>
      rw [htype] at hform hlength
      exact .inl ⟨digits, hform, hlength⟩
    | falcon512 =>
      rw [htype] at hform hlength
      exact .inr ⟨digits, hform, hlength⟩
  · rintro (⟨digits, hform, hlength⟩ | ⟨digits, hform, hlength⟩)
    · obtain ⟨seed, hlower⟩ := Hex.exists_block (n := 32) hform.2 hlength
      exact ⟨ofSeed seed, digits, hform, hlower, seed, rfl⟩
    · obtain ⟨raw, hlower⟩ := Hex.exists_block (n := 1281 + 897) hform.2 (by omega)
      refine ⟨⟨raw.val.take 1281, .falcon512, raw.val.drop 1281⟩, digits, hform, ?_, ?_, ?_⟩
      · show Hex.encodeChars (raw.val.take 1281 ++ raw.val.drop 1281) = _
        rw [List.take_append_drop, hlower]
      · simp [raw.property]
      · simp [raw.property]

end PrivateKey

/-! ## Public keys -/

/-- What is relied on of Ed25519: the public key of a seed is a point of the curve. -/
class Suite.LawfulPoints [Suite] : Prop where
  isPoint_public : ∀ seed : Block 32, Suite.ed25519IsPoint (Suite.ed25519Public seed) = true

instance Suite.lawfulPoints_plain : @Suite.LawfulPoints Suite.plain := by
  let _ := Suite.plain
  exact ⟨fun _ => rfl⟩

namespace PublicKey

variable [Suite]

/-- The bytes are acceptable for the scheme. -/
def IsReadable (key : PublicKey) : Prop :=
  match key.keyType with
  | .ed25519 => ∃ point : Block 32, point.val = key.bytes ∧ Suite.ed25519IsPoint point = true
  | .falcon512 => key.bytes.length = 897

/-- What is read of a text is its bytes, if they are acceptable. -/
theorem ofText_eq_ok_iff_of_parse {text : String} {keyType : KeyType} {bytes : Bytes}
    (hparse : KeyText.parse .publicKey text = .ok (keyType, bytes)) {key : PublicKey} :
    ofText text = .ok key ↔ key = ⟨keyType, bytes⟩ ∧ key.IsReadable := by
  unfold ofText
  rw [hparse]
  cases keyType with
  | ed25519 =>
    simp only [bind, Except.bind]
    cases hblock : Block.ofBytes? 32 bytes with
    | none =>
      refine iff_of_false (by simp [throw, throwThe, MonadExceptOf.throw]) ?_
      rintro ⟨rfl, point, hpoint, -⟩
      rw [Block.ofBytes?_eq_some_iff.2 hpoint] at hblock
      exact absurd hblock (by simp)
    | some block =>
      have hval := Block.ofBytes?_eq_some_iff.1 hblock
      by_cases hpoint : Suite.ed25519IsPoint block = true
      · simp only [hpoint, Bool.not_true, Bool.false_eq_true, if_false, pure, Except.pure,
          Except.ok.injEq]
        constructor
        · rintro rfl
          exact ⟨rfl, block, hval, hpoint⟩
        · rintro ⟨rfl, -⟩
          rfl
      · rw [Bool.not_eq_true] at hpoint
        refine iff_of_false (by simp [hpoint, throw, throwThe, MonadExceptOf.throw]) ?_
        rintro ⟨rfl, point, hpoint', htrue⟩
        rw [Subtype.ext (hpoint'.trans hval.symm), hpoint] at htrue
        exact absurd htrue (by simp)
  | falcon512 =>
    simp only [bind, Except.bind]
    by_cases hlength : bytes.length = 897
    · simp only [hlength, ne_eq, not_true_eq_false, if_false, pure, Except.pure, Except.ok.injEq]
      constructor
      · rintro rfl
        exact ⟨rfl, hlength⟩
      · rintro ⟨rfl, -⟩
        rfl
    · refine iff_of_false (by simp [hlength, throw, throwThe, MonadExceptOf.throw]) ?_
      rintro ⟨rfl, htrue⟩
      exact hlength htrue

theorem reads_ofText :
    KeyText.Reads .publicKey ofText keyType bytes (IsReadable : PublicKey → Prop) := by
  intro text key
  cases hparse : KeyText.parse .publicKey text with
  | error fault =>
    unfold ofText
    rw [hparse]
    simp [bind, Except.bind]
  | ok parsed =>
    obtain ⟨scheme, bytes⟩ := parsed
    rw [ofText_eq_ok_iff_of_parse hparse]
    refine and_congr_left fun _ => ?_
    obtain ⟨scheme', bytes'⟩ := key
    simp [eq_comm]

/-- A text is read as a public key exactly if it has the form, with 64 digits of a point or with
    1794 digits. -/
theorem exists_ofText_iff {text : String} : (∃ key, ofText text = .ok key) ↔
    (∃ digits point, KeyText.HasForm .publicKey .ed25519 digits text ∧ digits.length = 64 ∧
      Hex.decode (String.ofList digits) = .ok point.val ∧ Suite.ed25519IsPoint point = true) ∨
    (∃ digits, KeyText.HasForm .publicKey .falcon512 digits text ∧ digits.length = 1794) := by
  rw [reads_ofText.exists_ofText_iff]
  constructor
  · rintro ⟨⟨scheme, bytes⟩, digits, hform, hlower, haccepted⟩
    have hlength := Hex.length_of_encodeChars hlower
    cases scheme with
    | ed25519 =>
      obtain ⟨point, hpoint, hisPoint⟩ := haccepted
      refine .inl ⟨digits, point, hform, ?_, ?_, hisPoint⟩
      · rw [hlength, ← hpoint, point.property]
      · rw [hpoint, Hex.decode_eq_ok_iff, String.toList_ofList]
        exact ⟨hform.2, hlower⟩
    | falcon512 =>
      refine .inr ⟨digits, hform, ?_⟩
      rw [hlength, haccepted]
  · rintro (⟨digits, point, hform, -, hdecode, hisPoint⟩ | ⟨digits, hform, hlength⟩)
    · rw [Hex.decode_eq_ok_iff, String.toList_ofList] at hdecode
      exact ⟨⟨.ed25519, point.val⟩, digits, hform, hdecode.2, point, rfl, hisPoint⟩
    · obtain ⟨block, hlower⟩ := Hex.exists_block (n := 897) hform.2 (by omega)
      exact ⟨⟨.falcon512, block.val⟩, digits, hform, hlower, block.property⟩

/-- Where public keys come from: a text, or the public half of a private key. -/
inductive Obtained : PublicKey → Prop
  | read {text : String} {key : PublicKey} (h : ofText text = .ok key) : Obtained key
  | half {key : PrivateKey} (h : key.Obtained) : Obtained key.publicKey

/-- The public half of a key that can be made is acceptable. -/
theorem isReadable_of_wellFormed [Suite.LawfulPoints] {key : PrivateKey} (h : key.WellFormed) :
    key.publicKey.IsReadable := by
  rcases h.cases with ⟨seed, rfl⟩ | ⟨secret, pub, rfl⟩
  · exact ⟨_, rfl, Suite.LawfulPoints.isPoint_public seed⟩
  · exact pub.property

theorem Obtained.isReadable [Suite.LawfulPoints] {key : PublicKey} (h : key.Obtained) :
    key.IsReadable := by
  cases h with
  | read h => exact ((reads_ofText _ _).1 h).2
  | half h => exact isReadable_of_wellFormed (PrivateKey.obtained_iff_wellFormed.1 h)

end PublicKey

/-! ## Signatures -/

namespace Signature

/-- The bytes are acceptable for the scheme: those of a Falcon-512 signature always are. -/
def IsReadable (signature : Signature) : Prop :=
  signature.keyType = .ed25519 → signature.bytes.length = 64

theorem reads_ofText :
    KeyText.Reads .signature ofText keyType bytes (IsReadable : Signature → Prop) := by
  rintro text ⟨scheme, bytes⟩
  unfold ofText
  cases hparse : KeyText.parse .signature text with
  | error fault => simp [bind, Except.bind]
  | ok parsed =>
    obtain ⟨scheme', bytes'⟩ := parsed
    simp only [bind, Except.bind, Except.ok.injEq, Prod.mk.injEq]
    by_cases hrefused : scheme' = .ed25519 ∧ bytes'.length ≠ 64
    · rw [if_pos hrefused]
      refine iff_of_false (by simp [throw, throwThe, MonadExceptOf.throw]) ?_
      rintro ⟨⟨rfl, rfl⟩, haccepted⟩
      exact hrefused.2 (haccepted hrefused.1)
    · rw [if_neg hrefused]
      simp only [pure, Except.pure, Except.ok.injEq, Signature.mk.injEq]
      refine ⟨fun heq => ⟨heq, ?_⟩, fun heq => heq.1⟩
      obtain ⟨rfl, rfl⟩ := heq
      exact fun htype => not_not.1 fun hne => hrefused ⟨htype, hne⟩

/-- A text is read as a signature exactly if it has the form, with 128 digits or with any even
    number of them. -/
theorem exists_ofText_iff {text : String} : (∃ signature, ofText text = .ok signature) ↔
    (∃ digits, KeyText.HasForm .signature .ed25519 digits text ∧ digits.length = 128) ∨
    (∃ digits, KeyText.HasForm .signature .falcon512 digits text ∧ digits.length % 2 = 0) := by
  rw [reads_ofText.exists_ofText_iff]
  constructor
  · rintro ⟨⟨scheme, bytes⟩, digits, hform, hlower, haccepted⟩
    have hlength := Hex.length_of_encodeChars hlower
    cases scheme with
    | ed25519 =>
      refine .inl ⟨digits, hform, ?_⟩
      rw [hlength, haccepted rfl]
    | falcon512 => exact .inr ⟨digits, hform, by omega⟩
  · rintro (⟨digits, hform, hlength⟩ | ⟨digits, hform, heven⟩)
    · obtain ⟨block, hlower⟩ := Hex.exists_block (n := 64) hform.2 (by omega)
      exact ⟨⟨.ed25519, block.val⟩, digits, hform, hlower, fun _ => block.property⟩
    · obtain ⟨bytes, hlower⟩ := Hex.exists_encodeChars hform.2 heven
      exact ⟨⟨.falcon512, bytes⟩, digits, hform, hlower, fun htype => absurd htype (by simp)⟩

/-- Where signatures come from: a text, or a private key that signs. -/
inductive Obtained [Suite] : Signature → Prop
  | read {text : String} {signature : Signature} (h : ofText text = .ok signature) :
    Obtained signature
  | signed {key : PrivateKey} {digest : Digest} {signature : Signature}
      {entropy entropy' : Entropy} (hkey : key.Obtained)
      (h : (key.sign digest).run entropy = (.ok signature, entropy')) : Obtained signature

theorem Obtained.isReadable [Suite] {signature : Signature} (h : signature.Obtained) :
    signature.IsReadable := by
  cases h with
  | read h => exact ((reads_ofText _ _).1 h).2
  | signed hkey h =>
    have hmade := PrivateKey.obtained_iff_wellFormed.1 hkey
    obtain ⟨htype, hlength⟩ := hmade.isOf_of_sign (congrArg Prod.fst h)
    exact fun hscheme => hlength (htype.symm.trans hscheme)

end Signature

end Custody
