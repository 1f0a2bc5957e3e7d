import Custody.Proofs.Path
import Custody.Wallet.Name

set_option autoImplicit false

/-! # Names of wallets

A name is its text, and gives the wallet's file a name that no other wallet's file has. -/

namespace Custody

theorem Utf8.encode_injective {a b : String} (h : encode a = encode b) : a = b := by
  have hdecode := decode_encode a
  rw [h, decode_encode] at hdecode
  exact (Except.ok.inj hdecode).symm

theorem Utf8.encode_append (a b : String) : encode (a ++ b) = encode a ++ encode b := by
  simp [encode, String.toUTF8]

theorem Utf8.encode_eq_flatMap (text : String) :
    encode text = text.toList.flatMap String.utf8EncodeChar := by
  simp [encode, String.toUTF8, ← String.utf8Encode_toList, List.utf8Encode]

/-- A name is its text. -/
theorem WalletName.eq_of_text_eq {a b : WalletName} (h : a.text = b.text) : a = b := by
  obtain ⟨text, accepted⟩ := a
  obtain ⟨text', accepted'⟩ := b
  cases h
  rfl

/-- There is no space in a name. -/
theorem WalletName.space_notMem (name : WalletName) : ' ' ∉ name.text.toList := by
  have haccepted := name.accepted
  unfold WalletName.accepts at haccepted
  simp only [Bool.and_eq_true, List.all_eq_true] at haccepted
  intro hspace
  exact absurd (haccepted.1.2 ' ' hspace) (by decide)

namespace WalletName

theorem lt_of_isNameChar {c : Char} (h : isNameChar c = true) : c.toNat < 128 := by
  unfold isNameChar Char.isAlphanum Char.isAlpha Char.isUpper Char.isLower Char.isDigit at h
  simp only [Bool.or_eq_true, Bool.and_eq_true, beq_iff_eq, decide_eq_true_eq, ge_iff_le,
    UInt32.le_iff_toNat_le] at h
  change (((((65 ≤ c.toNat ∧ c.toNat ≤ 90) ∨ (97 ≤ c.toNat ∧ c.toNat ≤ 122)) ∨
    (48 ≤ c.toNat ∧ c.toNat ≤ 57)) ∨ c = '.') ∨ c = '_') ∨ c = '-' at h
  rcases h with ((h | rfl) | rfl) | rfl
  · omega
  · decide
  · decide
  · decide

/-- The bytes of a character of a name. -/
theorem utf8EncodeChar_of_isNameChar {c : Char} (h : isNameChar c = true) :
    Path.slash ∉ String.utf8EncodeChar c ∧ 0 ∉ String.utf8EncodeChar c := by
  have hall : ∀ n < 128, isNameChar (Char.ofNat n) = true →
      Path.slash ∉ String.utf8EncodeChar (Char.ofNat n) ∧
        0 ∉ String.utf8EncodeChar (Char.ofNat n) := by decide +kernel
  have hchar := hall c.toNat (lt_of_isNameChar h)
  rw [Char.ofNat_toNat] at hchar
  exact hchar h

/-- Letters, digits, dots, underscores and hyphens, all of them ASCII. -/
def IsNameLetter (c : Char) : Prop :=
  ('A' ≤ c ∧ c ≤ 'Z') ∨ ('a' ≤ c ∧ c ≤ 'z') ∨ ('0' ≤ c ∧ c ≤ '9') ∨ c = '.' ∨ c = '_' ∨ c = '-'

theorem isNameChar_iff {c : Char} : isNameChar c = true ↔ IsNameLetter c := by
  unfold isNameChar Char.isAlphanum Char.isAlpha Char.isUpper Char.isLower Char.isDigit IsNameLetter
  simp only [Bool.or_eq_true, Bool.and_eq_true, beq_iff_eq, decide_eq_true_eq, or_assoc]
  exact Iff.rfl

/-- What a text must be to be a name. -/
structure Grammar (text : String) : Prop where
  ne_empty : text ≠ ""
  letters : ∀ c ∈ text.toList, IsNameLetter c
  ne_here : text ≠ "."
  ne_above : text ≠ ".."

/-- Neither a slash nor a null byte is in the bytes of letters of names. -/
theorem notMem_encode {text : String} (h : ∀ c ∈ text.toList, isNameChar c = true) :
    Path.slash ∉ Utf8.encode text ∧ 0 ∉ Utf8.encode text := by
  rw [Utf8.encode_eq_flatMap]
  constructor
  · intro hslash
    obtain ⟨c, hc, hmem⟩ := List.mem_flatMap.1 hslash
    exact (utf8EncodeChar_of_isNameChar (h c hc)).1 hmem
  · intro hzero
    obtain ⟨c, hc, hmem⟩ := List.mem_flatMap.1 hzero
    exact (utf8EncodeChar_of_isNameChar (h c hc)).2 hmem

/-- A text of letters of names is bare unless it is empty or stands for a directory. -/
theorem isBare_iff {text : String} (h : ∀ c ∈ text.toList, isNameChar c = true) :
    isBare text = true ↔ text ≠ "" ∧ text ≠ "." ∧ text ≠ ".." := by
  have hencode : ∀ other, Utf8.encode text = Utf8.encode other ↔ text = other :=
    fun other => ⟨Utf8.encode_injective, congrArg Utf8.encode⟩
  have hodd : (Utf8.encode text = [] ∨ Utf8.encode text = Path.here ∨
      Utf8.encode text = Path.above) ↔ text = "" ∨ text = "." ∨ text = ".." := by
    rw [← hencode "", ← hencode ".", ← hencode ".."]
    exact Iff.rfl
  unfold isBare Path.ofString
  rw [Path.fileName?_of_notMem (notMem_encode h).1]
  simp only [hodd]
  split
  · rename_i hbad
    refine iff_of_false (by simp) ?_
    rintro ⟨hempty, hhere, habove⟩
    exact hbad.elim hempty fun hrest => hrest.elim hhere habove
  · rename_i hgood
    simp only [not_or] at hgood
    exact iff_of_true (by simp) hgood

theorem accepts_iff (text : String) : accepts text = true ↔ Grammar text := by
  unfold accepts
  simp only [Bool.and_eq_true, bne_iff_ne, ne_eq, List.all_eq_true]
  constructor
  · rintro ⟨⟨-, hletters⟩, hbare⟩
    obtain ⟨hempty, hhere, habove⟩ := (isBare_iff hletters).1 hbare
    exact ⟨hempty, fun c hc => isNameChar_iff.1 (hletters c hc), hhere, habove⟩
  · rintro ⟨hempty, hletters, hhere, habove⟩
    have hchars : ∀ c ∈ text.toList, isNameChar c = true :=
      fun c hc => isNameChar_iff.2 (hletters c hc)
    exact ⟨⟨by simpa using hempty, hchars⟩, (isBare_iff hchars).2 ⟨hempty, hhere, habove⟩⟩

/-- The texts that are read as names are those that the grammar allows, each as itself. -/
theorem exists_parse_iff (text : String) :
    (∃ name, parse text = .ok name ∧ name.text = text) ↔ Grammar text := by
  rw [← accepts_iff]
  unfold parse
  constructor
  · rintro ⟨name, -, rfl⟩
    exact name.accepted
  · intro haccepted
    exact ⟨⟨text, haccepted⟩, dif_pos haccepted, rfl⟩

/-- Dots make a name unless there are no more than two of them and nothing else. -/
example : accepts "..." = true ∧ accepts ".wallet.tmp" = true ∧ accepts ".." = false ∧
    accepts "a/b" = false := by decide +kernel

variable (name other : WalletName)

theorem notMem_encode_text : Path.slash ∉ Utf8.encode name.text ∧ 0 ∉ Utf8.encode name.text := by
  have haccepted := name.accepted
  unfold accepts at haccepted
  simp only [Bool.and_eq_true, List.all_eq_true] at haccepted
  exact notMem_encode haccepted.1.2

/-- The name of a wallet's file as bytes. -/
def fileBytes : Bytes := Utf8.encode name.fileName

theorem fileBytes_eq : name.fileBytes = Utf8.encode name.text ++ Utf8.encode ".wallet" := by
  rw [fileBytes, fileName, Utf8.encode_append]

theorem isFileName : Path.IsFileName name.fileBytes := by
  obtain ⟨hslash, hzero⟩ := name.notMem_encode_text
  rw [fileBytes_eq]
  refine Path.isFileName_of_length ?_ ?_ ?_
  · rw [List.mem_append, not_or]
    exact ⟨hslash, by decide⟩
  · rw [List.mem_append, not_or]
    exact ⟨hzero, by decide⟩
  · rw [List.length_append, show (Utf8.encode ".wallet").length = 7 from rfl]
    omega

variable {name other}

theorem fileBytes_ne (h : other ≠ name) : other.fileBytes ≠ name.fileBytes := by
  intro heq
  rw [fileBytes_eq, fileBytes_eq] at heq
  exact h (eq_of_text_eq (Utf8.encode_injective (List.append_cancel_right heq)))

end WalletName

end Custody
