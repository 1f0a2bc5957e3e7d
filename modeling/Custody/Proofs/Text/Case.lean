import Custody.Config
import Custody.Text.UpperCase
import Mathlib.Data.List.Forall2
import Mathlib.Data.List.Infix

set_option autoImplicit false

/-! # Letters of either case

Two texts are the same up to case if they have the same characters, except that a letter of one may be
small where that of the other is capital; only the letters `a` to `z` count. The comparison of
settings is exactly this (`Config.equalUpToCase_iff`). Full upper case identifies more texts, since it
also maps characters beyond ASCII, some of them to several letters; `Text.upperCase_eq_iff` says of
which texts it does not: those in which nothing occurs that is the upper case of such a character. -/

namespace Custody.Text

/-- The same character, or a letter in either case. -/
def SameLetter (a b : Char) : Prop :=
  a = b ∨ (a.isUpper = true ∧ b.toNat = a.toNat + 32) ∨ (b.isUpper = true ∧ a.toNat = b.toNat + 32)

/-- The same text up to the case of letters. -/
def SameUpToCase (a b : List Char) : Prop := List.Forall₂ SameLetter a b

theorem isUpper_iff {c : Char} : c.isUpper = true ↔ 65 ≤ c.toNat ∧ c.toNat ≤ 90 :=
  decide_eq_true_iff

theorem isLower_iff {c : Char} : c.isLower = true ↔ 97 ≤ c.toNat ∧ c.toNat ≤ 122 := by
  change (decide (97 ≤ c.toNat) && decide (c.toNat ≤ 122)) = true ↔ _
  rw [Bool.and_eq_true, decide_eq_true_eq, decide_eq_true_eq]

theorem toNat_toLower (c : Char) :
    c.toLower.toNat = if c.isUpper = true then c.toNat + 32 else c.toNat := by
  unfold Char.toLower
  by_cases hupper : c.val ≥ 'A'.val ∧ c.val ≤ 'Z'.val
  · have hc : c.isUpper = true := isUpper_iff.2 hupper
    have hle : c.toNat ≤ 90 := (isUpper_iff.1 hc).2
    rw [dif_pos hupper, if_pos hc]
    show (c.val + 32).toNat = c.val.toNat + 32
    simp only [Char.toNat] at hle
    simp only [UInt32.toNat_add, UInt32.reduceToNat]
    omega
  · rw [dif_neg hupper, if_neg]
    exact fun hc => hupper (isUpper_iff.1 hc)

theorem sameLetter_iff {a b : Char} : SameLetter a b ↔ a.toLower = b.toLower := by
  unfold SameLetter
  rw [← Char.toNat_inj, ← Char.toNat_inj, toNat_toLower, toNat_toLower]
  simp only [isUpper_iff]
  split <;> split <;> omega

/-! ## Full upper case -/

/-- A text of capitals and digits in which nothing occurs that is the upper case of a character beyond
    ASCII, or of a ligature. -/
structure IsPlain (target : List Char) : Prop where
  alphabet : ∀ u ∈ target, u.isUpper = true ∨ u.isDigit = true
  runs : ∀ run ∈ caseRuns.tail, ∀ u ∈ target,
    run.covers (u.toNat - run.distance).toNat = false
  expansions : ∀ entry ∈ caseExpansions, ¬ entry.2.map Char.ofNat <:+: target

theorem isPlain_iff (target : List Char) : IsPlain target ↔
    (target.all fun u => u.isUpper || u.isDigit) = true ∧
    (caseRuns.tail.all fun run => target.all fun u =>
      !run.covers (u.toNat - run.distance).toNat) = true ∧
    ∀ entry ∈ caseExpansions, ¬ entry.2.map Char.ofNat <:+: target := by
  simp only [List.all_eq_true, Bool.or_eq_true, Bool.not_eq_true']
  exact ⟨fun h => ⟨h.alphabet, h.runs, h.expansions⟩,
    fun h => { alphabet := h.1, runs := h.2.1, expansions := h.2.2 }⟩

instance (target : List Char) : Decidable (IsPlain target) :=
  decidable_of_iff _ (isPlain_iff target).symm

theorem caseRuns_eq : caseRuns = ⟨0x61, 0x7a, 1, -32⟩ :: caseRuns.tail := rfl

theorem isDigit_iff {c : Char} : c.isDigit = true ↔ 48 ≤ c.toNat ∧ c.toNat ≤ 57 := by
  change (decide (48 ≤ c.toNat) && decide (c.toNat ≤ 57)) = true ↔ _
  rw [Bool.and_eq_true, decide_eq_true_eq, decide_eq_true_eq]

/-- A code point that is a character other than the null character is the code point of it. -/
theorem code_of_ofNat {n : Nat} {u : Char} (h : Char.ofNat n = u) (hu : u.toNat ≠ 0) :
    n = u.toNat := by
  by_cases hvalid : n.isValidChar
  · have hchar : Char.ofNat n = Char.ofNatAux n hvalid := dif_pos hvalid
    exact congrArg Char.toNat (hchar.symm.trans h)
  · have hchar : Char.ofNat n = '\x00' := dif_neg hvalid
    rw [← h, hchar] at hu
    exact absurd rfl hu

/-- The upper case of a character is in the tables, or the character itself. -/
theorem upperChar_cases (c : Char) :
    (∃ entry ∈ caseExpansions, upperChar c = entry.2.map Char.ofNat) ∨
    (∃ run ∈ caseRuns, run.covers c.toNat = true ∧
      upperChar c = [Char.ofNat (c.toNat + run.distance).toNat]) ∨
    upperChar c = [c] := by
  unfold upperChar
  cases hlookup : caseExpansions.lookup c.toNat with
  | some codes =>
    obtain ⟨before, after, heq, -⟩ := List.lookup_eq_some_iff.1 hlookup
    exact .inl ⟨(c.toNat, codes), by simp [heq], rfl⟩
  | none =>
    cases hfind : caseRuns.find? (·.covers c.toNat) with
    | some run =>
      have hcovers : run.covers c.toNat = true :=
        List.find?_some (p := fun run : CaseRun => run.covers c.toNat) hfind
      exact .inr (.inl ⟨run, List.mem_of_find?_eq_some hfind, hcovers, rfl⟩)
    | none => exact .inr (.inr rfl)

/-- A capital or digit is the upper case of itself and of the small letter. -/
theorem upperChar_of_sameLetter {c u : Char} (hu : u.isUpper = true ∨ u.isDigit = true)
    (h : SameLetter c u) : upperChar c = [u] := by
  have hexpansions : ∀ entry ∈ caseExpansions, 128 ≤ entry.1 := by decide +kernel
  have hruns : ∀ run ∈ caseRuns.tail, 128 ≤ run.first := by decide +kernel
  rw [isUpper_iff, isDigit_iff] at hu
  have hletter : c = u ∨ (65 ≤ u.toNat ∧ u.toNat ≤ 90 ∧ c.toNat = u.toNat + 32) := by
    rcases h with rfl | ⟨hc, hcase⟩ | ⟨hupper, hcase⟩
    · exact .inl rfl
    · rw [isUpper_iff] at hc
      omega
    · rw [isUpper_iff] at hupper
      exact .inr ⟨hupper.1, hupper.2, hcase⟩
  have hascii : c.toNat < 128 := by
    rcases hletter with rfl | ⟨-, -, hcase⟩ <;> omega
  have hlookup : caseExpansions.lookup c.toNat = none := by
    rw [List.lookup_eq_none_iff]
    intro entry hentry
    have := hexpansions entry hentry
    rw [bne_iff_ne]
    omega
  have htail : caseRuns.tail.find? (·.covers c.toNat) = none := by
    rw [List.find?_eq_none]
    intro run hrun hcovers
    have := hruns run hrun
    simp only [CaseRun.covers, Bool.and_eq_true, decide_eq_true_eq] at hcovers
    omega
  unfold upperChar
  rw [hlookup, caseRuns_eq, List.find?_cons, htail]
  rcases hletter with rfl | ⟨hle, hge, hcase⟩
  · have hcovers : (⟨0x61, 0x7a, 1, -32⟩ : CaseRun).covers c.toNat = false := by
      simp only [CaseRun.covers, Bool.and_eq_false_iff, decide_eq_false_iff_not]
      omega
    rw [hcovers]
  · have hcovers : (⟨0x61, 0x7a, 1, -32⟩ : CaseRun).covers c.toNat = true := by
      simp only [CaseRun.covers, Bool.and_eq_true, decide_eq_true_eq, beq_iff_eq]
      omega
    rw [hcovers]
    have hcode : ((c.toNat : Int) + -32).toNat = u.toNat := by omega
    simp only [hcode, Char.ofNat_toNat]

/-- What occurs in a plain text is the upper case of the same letters only. -/
theorem IsPlain.sameLetter {target : List Char} (h : IsPlain target) {c : Char}
    (hpart : upperChar c <:+: target) : ∃ u, upperChar c = [u] ∧ SameLetter c u := by
  rcases upperChar_cases c with ⟨entry, hentry, heq⟩ | ⟨run, hrun, hcovers, heq⟩ | heq
  · exact absurd (heq ▸ hpart) (h.expansions entry hentry)
  · refine ⟨_, heq, ?_⟩
    rw [heq] at hpart
    have hmem := hpart.subset (List.mem_singleton_self _)
    generalize hu : Char.ofNat (c.toNat + run.distance).toNat = u at hmem
    have halphabet := h.alphabet u hmem
    rw [isUpper_iff, isDigit_iff] at halphabet
    have hcode := code_of_ofNat hu (by omega)
    rw [caseRuns_eq, List.mem_cons] at hrun
    rcases hrun with rfl | htail
    · simp only [CaseRun.covers, Bool.and_eq_true, decide_eq_true_eq] at hcovers hcode
      refine .inr (.inr ⟨isUpper_iff.2 ?_, ?_⟩) <;> omega
    · have hback : (u.toNat - run.distance).toNat = c.toNat := by omega
      have hruns := h.runs run htail u hmem
      rw [hback, hcovers] at hruns
      exact absurd hruns (by simp)
  · exact ⟨c, heq, .inl rfl⟩

theorem IsPlain.sameUpToCase {target : List Char} (h : IsPlain target) {text rest : List Char}
    (hrest : rest <:+ target) (heq : text.flatMap upperChar = rest) : SameUpToCase text rest := by
  induction text generalizing rest with
  | nil =>
    subst heq
    exact .nil
  | cons c text ih =>
    rw [List.flatMap_cons] at heq
    have hpart : upperChar c <:+: target := by
      refine List.IsInfix.trans ?_ hrest.isInfix
      exact heq ▸ (List.prefix_append _ _).isInfix
    obtain ⟨u, hupper, hletter⟩ := h.sameLetter hpart
    rw [hupper, List.singleton_append] at heq
    subst heq
    exact .cons hletter (ih ((List.suffix_cons _ _).trans hrest) rfl)

theorem flatMap_upperChar_of_sameUpToCase {text target : List Char}
    (htarget : ∀ u ∈ target, u.isUpper = true ∨ u.isDigit = true)
    (h : SameUpToCase text target) : text.flatMap upperChar = target := by
  induction h with
  | nil => rfl
  | @cons c u text target hletter _ ih =>
    rw [List.flatMap_cons, upperChar_of_sameLetter (htarget u (by simp)) hletter,
      ih fun u' hu' => htarget u' (by simp [hu'])]
    rfl

/-- Exactly the texts that are the same up to case have a plain text as their upper case. -/
theorem upperCase_eq_iff {target : String} (h : IsPlain target.toList) (text : String) :
    upperCase text = target ↔ SameUpToCase text.toList target.toList := by
  unfold upperCase
  rw [← String.toList_inj, String.toList_ofList]
  constructor
  · exact h.sameUpToCase List.suffix_rfl
  · exact flatMap_upperChar_of_sameUpToCase h.alphabet

end Custody.Text

namespace Custody.Config

open Text

theorem equalUpToCase_iff {a b : List Char} : equalUpToCase a b = true ↔ SameUpToCase a b := by
  have hletter : SameLetter = fun a b => a.toLower = b.toLower := by
    funext a b
    exact propext sameLetter_iff
  unfold equalUpToCase SameUpToCase
  rw [beq_iff_eq, ← List.forall₂_eq_eq_eq, List.forall₂_map_left_iff, List.forall₂_map_right_iff,
    hletter]

end Custody.Config
