import Custody.Proofs.Text.Case
import Mathlib.Data.List.TakeWhile
import Mathlib.Tactic.Ring

set_option autoImplicit false

/-! # The timeout of an environment

The timeout may come as text: one of two words, or a number of seconds, with white space around it.
`Config.timeout_of_environment` says which texts mean which timeout. The number is read digit by digit
and given up as soon as it no longer fits into 64 bits; since the value of a row of digits is never
below that of its beginning, this refuses exactly the rows whose value does not fit
(`Config.readDigits_eq_some_iff`), however many zeros they begin with. -/

namespace Custody

/-! ## White space at the ends -/

namespace Text

/-- A text is what another one leaves without the white space at both ends. -/
structure Trims (raw t : List Char) : Prop where
  around : ∃ before after, raw = before ++ (t ++ after) ∧ (∀ c ∈ before, isBlank c = true) ∧
    ∀ c ∈ after, isBlank c = true
  head : ∀ c ∈ t.head?, isBlank c = false
  last : ∀ c ∈ t.getLast?, isBlank c = false

variable {raw t : List Char}

/-- Nothing is dropped from a text that does not begin with white space. -/
theorem dropWhile_isBlank_eq_self (h : ∀ c ∈ t.head?, isBlank c = false) :
    t.dropWhile isBlank = t := by
  cases t with
  | nil => rfl
  | cons c t =>
    have hc := h c rfl
    simp [hc]

theorem isBlank_of_mem_head?_dropWhile {c : Char} (h : c ∈ (t.dropWhile isBlank).head?) :
    isBlank c = false := by
  have hhead := List.head?_dropWhile_not isBlank t
  rw [Option.mem_def.1 h] at hhead
  simpa using hhead

theorem trims_trim (raw : List Char) : Trims raw (trim raw) := by
  have hraw := List.takeWhile_append_dropWhile (p := isBlank) (l := raw)
  generalize hrest : raw.dropWhile isBlank = rest at hraw
  have hrest' := List.takeWhile_append_dropWhile (p := isBlank) (l := rest.reverse)
  have htrim : trim raw = (rest.reverse.dropWhile isBlank).reverse := by
    unfold trim
    rw [hrest]
  -- the rest is the trimmed text with white space after it
  have hsplit : rest = trim raw ++ (rest.reverse.takeWhile isBlank).reverse := by
    rw [htrim, ← List.reverse_append, hrest', List.reverse_reverse]
  refine ⟨⟨raw.takeWhile isBlank, (rest.reverse.takeWhile isBlank).reverse, ?_, ?_, ?_⟩, ?_, ?_⟩
  · rw [← hsplit, hraw]
  · intro c hc
    exact List.mem_takeWhile_imp hc
  · intro c hc
    exact List.mem_takeWhile_imp (List.mem_reverse.1 hc)
  · intro c hc
    apply isBlank_of_mem_head?_dropWhile (t := raw)
    rw [hrest, hsplit, List.head?_append, Option.mem_def.1 hc]
    rfl
  · intro c hc
    apply isBlank_of_mem_head?_dropWhile (t := rest.reverse)
    rwa [htrim, List.getLast?_reverse] at hc

theorem Trims.eq_trim (h : Trims raw t) : t = trim raw := by
  obtain ⟨before, after, rfl, hbefore, hafter⟩ := h.around
  unfold trim
  rw [List.dropWhile_append_of_pos hbefore]
  cases t with
  | nil =>
    have hnil : after.dropWhile isBlank = [] := List.dropWhile_eq_nil_iff.2 hafter
    simp [hnil]
  | cons c t =>
    have hlast : ((c :: t).reverse).dropWhile isBlank = (c :: t).reverse := by
      apply dropWhile_isBlank_eq_self
      rw [List.head?_reverse]
      exact h.last
    rw [dropWhile_isBlank_eq_self (t := c :: t ++ after) h.head, List.reverse_append,
      List.dropWhile_append_of_pos fun d hd => hafter d (List.mem_reverse.1 hd), hlast,
      List.reverse_reverse]

end Text

namespace Config

open Text

/-! ## Numbers -/

/-- The value of a row of digits, each counted at its place. -/
def digitsValue : List Char → Nat
  | [] => 0
  | c :: rest => (c.toNat - '0'.toNat) * 10 ^ rest.length + digitsValue rest

/-- A text is a row of digits, perhaps after a plus sign. -/
structure Numeral (t digits : List Char) : Prop where
  text : t = digits ∨ t = '+' :: digits
  ne_nil : digits ≠ []
  isDigit : ∀ c ∈ digits, c.isDigit = true

variable {t digits : List Char} {n m : Nat}

/-- A row of digits is read onto a number, unless the result needs more than 64 bits. -/
theorem readDigits_eq_some_iff (hn : n < UInt64.size) : readDigits digits n = some m ↔
    (∀ c ∈ digits, c.isDigit = true) ∧ n * 10 ^ digits.length + digitsValue digits = m ∧
      m < UInt64.size := by
  induction digits generalizing n with
  | nil =>
    simp only [readDigits, digitsValue, Option.some.injEq, List.length_nil]
    constructor
    · rintro rfl
      simpa using hn
    · rintro ⟨-, h, -⟩
      simpa using h
  | cons c rest ih =>
    unfold readDigits
    by_cases hc : c.isDigit = true
    · have hvalue : n * 10 ^ (c :: rest).length + digitsValue (c :: rest) =
          (10 * n + (c.toNat - '0'.toNat)) * 10 ^ rest.length + digitsValue rest := by
        simp only [digitsValue, List.length_cons, pow_succ]
        ring
      rw [if_pos hc, hvalue]
      dsimp only
      split
      · rename_i hsize
        simp only [ih hsize, List.forall_mem_cons, hc, true_and]
      · rename_i hsize
        -- what does not fit now does not fit with more digits behind it
        have hgrows : 10 * n + (c.toNat - '0'.toNat) ≤
            (10 * n + (c.toNat - '0'.toNat)) * 10 ^ rest.length :=
          Nat.le_mul_of_pos_right _ (Nat.pow_pos (by decide))
        refine iff_of_false (by simp) ?_
        rintro ⟨-, rfl, hlt⟩
        omega
    · rw [if_neg hc]
      refine iff_of_false (by simp) ?_
      rintro ⟨hall, -⟩
      exact hc (hall c (List.mem_cons_self))

theorem readNumber_eq_some_iff : readNumber t = some m ↔
    ∃ digits, Numeral t digits ∧ digitsValue digits = m ∧ m < UInt64.size := by
  have hread : ∀ digits, readDigits digits 0 = some m ↔
      (∀ c ∈ digits, c.isDigit = true) ∧ digitsValue digits = m ∧ m < UInt64.size := by
    intro digits
    rw [readDigits_eq_some_iff (by decide), Nat.zero_mul, Nat.zero_add]
  unfold readNumber
  split
  · refine iff_of_false (by simp) ?_
    rintro ⟨digits, ⟨htext, hne, -⟩, -⟩
    rcases htext with rfl | htext
    · exact hne rfl
    · exact absurd htext (by simp)
  · refine iff_of_false (by simp) ?_
    rintro ⟨digits, ⟨htext, hne, hdigit⟩, -⟩
    rcases htext with rfl | htext
    · exact absurd (hdigit '+' (by simp)) (by decide)
    · cases htext
      exact hne rfl
  · rename_i rest hrest
    rw [hread]
    constructor
    · rintro ⟨hdigit, hvalue⟩
      exact ⟨rest, ⟨.inr rfl, fun hnil => hrest (by rw [hnil]), hdigit⟩, hvalue⟩
    · rintro ⟨digits, ⟨htext, -, hdigit⟩, hvalue⟩
      rcases htext with rfl | htext
      · exact absurd (hdigit '+' (by simp)) (by decide)
      · cases htext
        exact ⟨hdigit, hvalue⟩
  · rename_i hnil _ hplus
    rw [hread]
    constructor
    · rintro ⟨hdigit, hvalue⟩
      exact ⟨t, ⟨.inl rfl, hnil, hdigit⟩, hvalue⟩
    · rintro ⟨digits, ⟨htext, -, hdigit⟩, hvalue⟩
      rcases htext with rfl | htext
      · exact ⟨hdigit, hvalue⟩
      · exact absurd htext (hplus digits)

theorem digitsValue_eq_zero_iff (hdigit : ∀ c ∈ digits, c.isDigit = true) :
    digitsValue digits = 0 ↔ ∀ c ∈ digits, c = '0' := by
  induction digits with
  | nil => simp [digitsValue]
  | cons c rest ih =>
    rw [List.forall_mem_cons] at hdigit ⊢
    have hc := isDigit_iff.1 hdigit.1
    have hzero : '0'.toNat = 48 := rfl
    rw [digitsValue, Nat.add_eq_zero_iff, ih hdigit.2, Nat.mul_eq_zero, ← Char.toNat_inj]
    simp only [Nat.pow_eq_zero, hzero]
    constructor
    · rintro ⟨hdiff | hpow, hrest⟩
      · exact ⟨by omega, hrest⟩
      · omega
    · rintro ⟨hcode, hrest⟩
      exact ⟨.inl (by omega), hrest⟩

/-- A number is no word. -/
theorem Numeral.not_sameUpToCase (h : Numeral t digits) {u : Char} {word : List Char}
    (hu : u.isLower = true) : ¬ SameUpToCase t (u :: word) := by
  rintro ⟨⟩
  rename_i c rest hletter _
  have hcode : c.toNat ≤ 57 := by
    rcases h.text with htext | htext
    · exact (isDigit_iff.1 (h.isDigit c (by simp [← htext]))).2
    · cases htext
      decide
  have hlower : 97 ≤ u.toNat := (isLower_iff.1 hu).1
  rcases hletter with rfl | ⟨hupper, hcase⟩ | ⟨hupper, hcase⟩
  · omega
  · rw [isUpper_iff] at hupper
    omega
  · rw [isUpper_iff] at hupper
    omega

/-! ## Timeouts -/

/-- The words for no timeout. -/
def IsOffWord (t : List Char) : Prop :=
  SameUpToCase t "none".toList ∨ SameUpToCase t "off".toList

theorem Numeral.not_isOffWord (h : Numeral t digits) : ¬ IsOffWord t := by
  rintro (hword | hword)
  · exact h.not_sameUpToCase (by decide) hword
  · exact h.not_sameUpToCase (by decide) hword

/-- What a text says about the timeout, by what it leaves without white space around it. -/
structure Grammar (raw : String) (t : List Char) : Prop where
  trims : Trims raw.toList t
  unique : ∀ t', Trims raw.toList t' → t' = t
  disables_iff : readTimeout raw = some none ↔
    IsOffWord t ∨ ∃ digits, Numeral t digits ∧ ∀ c ∈ digits, c = '0'
  sets_iff : ∀ duration : Duration, readTimeout raw = some (some duration) ↔
    ∃ digits, Numeral t digits ∧ 1 ≤ digitsValue digits ∧ digitsValue digits < 2 ^ 64 ∧
      duration.seconds.toNat = digitsValue digits ∧ duration.nanos = 0
  malformed_iff : readTimeout raw = none ↔
    ¬ IsOffWord t ∧ ∀ digits, Numeral t digits → 2 ^ 64 ≤ digitsValue digits

theorem Duration.eq_ofSeconds_iff {duration : Duration} (hn : n < 2 ^ 64) :
    duration = .ofSeconds (UInt64.ofNat n) ↔ duration.seconds.toNat = n ∧ duration.nanos = 0 := by
  have hseconds : (UInt64.ofNat n).toNat = n := UInt64.toNat_ofNat_of_lt' hn
  obtain ⟨seconds, nanos, hnanos⟩ := duration
  simp only [Duration.ofSeconds, Duration.mk.injEq]
  rw [← UInt64.toNat_inj, hseconds]

theorem readTimeout_eq (raw : String) : readTimeout raw =
    if equalUpToCase (trim raw.toList) "none".toList = true ∨
        equalUpToCase (trim raw.toList) "off".toList = true then some none
    else (readNumber (trim raw.toList)).map fun seconds =>
      if seconds = 0 then none else some (.ofSeconds (UInt64.ofNat seconds)) := by
  unfold readTimeout
  simp only [Bool.or_eq_true]

/-- A word for no timeout is read as such. -/
theorem readTimeout_of_isOffWord {raw : String} (h : IsOffWord (trim raw.toList)) :
    readTimeout raw = some none := by
  unfold IsOffWord at h
  rw [← equalUpToCase_iff, ← equalUpToCase_iff] at h
  rw [readTimeout_eq, if_pos h]

/-- What is no such word is read as a number. -/
theorem readTimeout_of_not_isOffWord {raw : String} (h : ¬ IsOffWord (trim raw.toList)) :
    readTimeout raw = (readNumber (trim raw.toList)).map fun seconds =>
      if seconds = 0 then none else some (.ofSeconds (UInt64.ofNat seconds)) := by
  unfold IsOffWord at h
  rw [← equalUpToCase_iff, ← equalUpToCase_iff] at h
  rw [readTimeout_eq, if_neg h]

theorem grammar_readTimeout (raw : String) : Grammar raw (trim raw.toList) where
  trims := trims_trim _
  unique _ h := h.eq_trim
  disables_iff := by
    by_cases hword : IsOffWord (trim raw.toList)
    · exact iff_of_true (readTimeout_of_isOffWord hword) (.inl hword)
    · rw [readTimeout_of_not_isOffWord hword, Option.map_eq_some_iff]
      simp only [hword, false_or, ite_eq_left_iff, reduceCtorEq, imp_false, not_not,
        readNumber_eq_some_iff]
      constructor
      · rintro ⟨n, ⟨digits, hnumeral, hvalue, -⟩, rfl⟩
        exact ⟨digits, hnumeral, (digitsValue_eq_zero_iff hnumeral.isDigit).1 hvalue⟩
      · rintro ⟨digits, hnumeral, hzeros⟩
        have hvalue := (digitsValue_eq_zero_iff hnumeral.isDigit).2 hzeros
        exact ⟨0, ⟨digits, hnumeral, hvalue, by decide⟩, rfl⟩
  sets_iff duration := by
    by_cases hword : IsOffWord (trim raw.toList)
    · rw [readTimeout_of_isOffWord hword]
      refine iff_of_false (by simp) ?_
      rintro ⟨digits, hnumeral, -⟩
      exact hnumeral.not_isOffWord hword
    · rw [readTimeout_of_not_isOffWord hword, Option.map_eq_some_iff]
      simp only [readNumber_eq_some_iff]
      constructor
      · rintro ⟨_, ⟨digits, hnumeral, rfl, hsize⟩, hread⟩
        by_cases hzero : digitsValue digits = 0
        · simp [hzero] at hread
        · rw [if_neg hzero, Option.some.injEq, eq_comm, Duration.eq_ofSeconds_iff hsize] at hread
          exact ⟨digits, hnumeral, by omega, hsize, hread⟩
      · rintro ⟨digits, hnumeral, hpos, hsize, hread⟩
        refine ⟨_, ⟨digits, hnumeral, rfl, hsize⟩, ?_⟩
        rw [if_neg (by omega), (Duration.eq_ofSeconds_iff hsize).2 hread]
  malformed_iff := by
    by_cases hword : IsOffWord (trim raw.toList)
    · rw [readTimeout_of_isOffWord hword]
      exact iff_of_false (by simp) fun h => h.1 hword
    · rw [readTimeout_of_not_isOffWord hword, Option.map_eq_none_iff, Option.eq_none_iff_forall_ne_some]
      simp only [ne_eq, readNumber_eq_some_iff, hword, not_false_eq_true, true_and]
      constructor
      · intro h digits hnumeral
        by_contra hsize
        exact h _ ⟨digits, hnumeral, rfl, Nat.lt_of_not_le hsize⟩
      · rintro h n ⟨digits, hnumeral, rfl, hsize⟩
        exact absurd (h digits hnumeral) (Nat.not_le_of_lt hsize)

/-! ## Environments -/

/-- How an environment's timeout is taken into the settings, and nothing else of them. -/
structure Heeds (environment : Environment) : Prop where
  absent : environment.unlockTimeout = none →
    (ofEnvironment environment).unlockTimeout = some standardTimeout
  undecodable : ∀ bytes, environment.unlockTimeout = some bytes →
    (∀ text, Utf8.encode text ≠ bytes) →
    (ofEnvironment environment).unlockTimeout = some standardTimeout
  malformed : ∀ raw, environment.unlockTimeout = some (Utf8.encode raw) →
    readTimeout raw = none → (ofEnvironment environment).unlockTimeout = some standardTimeout
  parsed : ∀ raw timeout, environment.unlockTimeout = some (Utf8.encode raw) →
    readTimeout raw = some timeout → (ofEnvironment environment).unlockTimeout = timeout
  independent : ∀ value, ofEnvironment { environment with unlockTimeout := value } =
    { ofEnvironment environment with
      unlockTimeout := (ofEnvironment { environment with unlockTimeout := value }).unlockTimeout }

/-- The settings of an environment apart from its timeout. -/
theorem ofEnvironment_eq (environment : Environment) : ofEnvironment environment =
    { walletDir := (environment.walletDir.map Path.mk).getD (standard environment).walletDir
      unlockTimeout :=
        match environment.unlockTimeout.map Utf8.decode with
        | some (.ok text) => (readTimeout text).getD (some standardTimeout)
        | _ => some standardTimeout
      cost := .standard
      probePlatform := true } := by
  unfold ofEnvironment
  generalize environment.unlockTimeout.map Utf8.decode = text
  rcases text with _ | error | text
  · cases environment.walletDir <;> rfl
  · cases environment.walletDir <;> rfl
  · dsimp only
    cases readTimeout text <;> cases environment.walletDir <;> rfl

theorem heeds (environment : Environment) : Heeds environment where
  absent h := by
    simp [ofEnvironment_eq, h]
  undecodable bytes h hbytes := by
    cases hdecode : Utf8.decode bytes with
    | error fault => simp [ofEnvironment_eq, h, hdecode]
    | ok text => exact absurd (Utf8.eq_encode_of_decode hdecode).symm (hbytes text)
  malformed raw h hread := by
    simp [ofEnvironment_eq, h, Utf8.decode_encode, hread]
  parsed raw timeout h hread := by
    simp [ofEnvironment_eq, h, Utf8.decode_encode, hread]
  independent value := by
    simp only [ofEnvironment_eq]
    rfl

/-- An environment sets the timeout as its text says, and leaves the default one in place if there is
    no text, or none that means a timeout; nothing else in the settings depends on it. What a text
    means is told by the part of it without white space at the ends: it disables the timeout if that
    is one of two words in any case or a number of zeros only, sets it to a number of seconds that is
    not zero and fits into 64 bits, and means nothing otherwise. -/
theorem timeout_of_environment :
    (∀ environment, Heeds environment) ∧ ∀ raw, Grammar raw (trim raw.toList) :=
  ⟨heeds, grammar_readTimeout⟩

example : readTimeout "\t+0090 " = some (some (.ofSeconds 90)) ∧ readTimeout "oFF" = some none ∧
    readTimeout "++5" = none := by decide +kernel

end Config

end Custody
