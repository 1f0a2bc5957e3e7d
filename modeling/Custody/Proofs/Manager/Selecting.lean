import Custody.Manager.Keys
import Custody.Proofs.Manager.Signing
import Custody.Proofs.Text.Case

set_option autoImplicit false

/-! # Selecting a scheme

A key is created in the scheme that is named by a selector, in any case. The selector is compared in
full upper case, and yet only texts that are the same up to the case of ASCII letters are taken for a
name (`Manager.selectKeyType_eq_ok_iff`): the long s, the dotless i and the ligatures have an upper
case within ASCII, but none that occurs in a name. What is asked of an open wallet is therefore
settled by its selector alone (`Manager.createKey_selects`). -/

namespace Custody

/-! ## Names of schemes -/

namespace KeyType

/-- The selector names the scheme. The empty one names Ed25519. -/
def IsNamedBy (keyType : KeyType) (selector : String) : Prop :=
  (keyType = .ed25519 ∧ selector = "") ∨
    Text.SameUpToCase selector.toList keyType.text.toList

/-- Nothing in the name of a scheme is the upper case of a character beyond ASCII. -/
theorem isPlain_text (keyType : KeyType) : Text.IsPlain keyType.text.toList := by
  cases keyType with
  | ed25519 => decide +kernel
  | falcon512 => decide +kernel

theorem isPlain_nil : Text.IsPlain [] := by decide +kernel

theorem upperCase_eq_empty_iff {selector : String} :
    Text.upperCase selector = "" ↔ selector = "" := by
  have hplain := @Text.upperCase_eq_iff "" isPlain_nil selector
  rw [hplain, ← String.toList_inj]
  exact List.forall₂_nil_right_iff

theorem upperCase_eq_text_iff {keyType : KeyType} {selector : String} :
    Text.upperCase selector = keyType.text ↔
      Text.SameUpToCase selector.toList keyType.text.toList :=
  Text.upperCase_eq_iff keyType.isPlain_text selector

theorem ofText?_eq_some_iff {keyType : KeyType} {text : String} :
    ofText? text = some keyType ↔ (keyType = .ed25519 ∧ text = "") ∨ text = keyType.text := by
  unfold ofText?
  by_cases hed : text = "" ∨ text = "ED25519"
  · rw [if_pos hed]
    cases keyType with
    | ed25519 => simpa [KeyType.text] using hed
    | falcon512 => rcases hed with rfl | rfl <;> decide
  · rw [if_neg hed]
    rw [not_or] at hed
    cases keyType <;> simp [KeyType.text, hed]

end KeyType

namespace Manager

theorem selectKeyType_eq (selector : String) : selectKeyType selector =
    ((KeyType.ofText? (Text.upperCase selector)).map Except.ok).getD
      (.error (.unsupportedKeyType (Text.upperCase selector))) := by
  unfold selectKeyType
  dsimp only
  cases KeyType.ofText? (Text.upperCase selector) <;> rfl

theorem ofText?_upperCase_eq_some_iff {selector : String} {keyType : KeyType} :
    KeyType.ofText? (Text.upperCase selector) = some keyType ↔ keyType.IsNamedBy selector := by
  rw [KeyType.ofText?_eq_some_iff, KeyType.upperCase_eq_empty_iff, KeyType.upperCase_eq_text_iff]
  exact Iff.rfl

/-- A selector is taken for the scheme that it names. -/
theorem selectKeyType_eq_ok_iff {selector : String} {keyType : KeyType} :
    selectKeyType selector = .ok keyType ↔ keyType.IsNamedBy selector := by
  rw [← ofText?_upperCase_eq_some_iff, selectKeyType_eq]
  cases KeyType.ofText? (Text.upperCase selector) <;> simp

/-- A selector that names no scheme is refused in its upper case. -/
theorem selectKeyType_of_not_named {selector : String}
    (h : ∀ keyType : KeyType, ¬ keyType.IsNamedBy selector) :
    selectKeyType selector = .error (.unsupportedKeyType (Text.upperCase selector)) := by
  have hnone : KeyType.ofText? (Text.upperCase selector) = none := by
    rw [Option.eq_none_iff_forall_ne_some]
    intro keyType hnamed
    exact h keyType (ofText?_upperCase_eq_some_iff.1 hnamed)
  rw [selectKeyType_eq, hnone]
  rfl

/-! ## Creating a key -/

variable {W : Type} [Backend W] {scene : Scene W} {name selector : String}
  {entry : WalletName × W}

theorem outcome_createKey_of_isOpen [Suite] (hopen : scene.checked.manager.IsOpen name entry) :
    (createKey name selector).outcome scene =
      (Act.ofExcept (selectKeyType selector) >>= fun keyType =>
        request entry (.createKey keyType) (Backend.createKey keyType)).outcome
        (scene.checked.noted entry.1 (.isLocked false) true) := by
  unfold createKey
  rw [outcome_checkTimeout_bind, Act.outcome_bind, outcome_unlockedWallet, hopen.1]
  simp [hopen.2]

/-- How a wallet that has said that it is unlocked is asked for a key. The scene is the one after
    that answer; the requests made from then on are those at the end of the record. -/
structure Selected (entry : WalletName × W) (selector : String) (asked : Scene W)
    (outcome : Except Error PublicKey × Scene W) : Prop where
  asked_iff : ∀ keyType : KeyType, (∃ succeeded,
    outcome.2.trace = asked.trace ++ [⟨entry.1, .createKey keyType, succeeded⟩]) ↔
      keyType.IsNamedBy selector
  named : ∀ keyType : KeyType, keyType.IsNamedBy selector →
    ∃ result wallet world,
      (Backend.createKey keyType).outcome (entry.2, asked.world) = (result, wallet, world) ∧
      outcome.1 = result ∧
      outcome.2.manager = asked.manager.replace entry.1 wallet ∧
      outcome.2.world = world ∧
      outcome.2.trace = asked.trace ++ [⟨entry.1, .createKey keyType, result.isOk⟩]
  refused : (∀ keyType : KeyType, ¬ keyType.IsNamedBy selector) →
    outcome = (.error (.unsupportedKeyType (Text.upperCase selector)), asked)

theorem selected_of_isOpen [Suite] (hopen : scene.checked.manager.IsOpen name entry) :
    Selected entry selector (scene.checked.noted entry.1 (.isLocked false) true)
      ((createKey name selector).outcome scene) := by
  rw [outcome_createKey_of_isOpen hopen, Act.outcome_bind, Act.outcome_ofExcept]
  by_cases hnamed : ∃ keyType : KeyType, keyType.IsNamedBy selector
  · obtain ⟨keyType, hnamed⟩ := hnamed
    have honly : ∀ keyType' : KeyType, keyType'.IsNamedBy selector → keyType' = keyType := by
      intro keyType' hnamed'
      have hselect := selectKeyType_eq_ok_iff.2 hnamed'
      rw [selectKeyType_eq_ok_iff.2 hnamed] at hselect
      cases hselect
      rfl
    rw [selectKeyType_eq_ok_iff.2 hnamed]
    dsimp only
    rw [outcome_request]
    refine ⟨?_, ?_, ?_⟩
    · intro keyType'
      constructor
      · rintro ⟨succeeded, htrace⟩
        have hevents := List.append_cancel_left htrace
        simp only [List.cons.injEq, Event.mk.injEq, Request.createKey.injEq] at hevents
        rw [← hevents.1.2.1]
        exact hnamed
      · intro hnamed'
        rw [honly keyType' hnamed']
        exact ⟨_, rfl⟩
    · intro keyType' hnamed'
      rw [honly keyType' hnamed']
      exact ⟨_, _, _, rfl, rfl, rfl, rfl, rfl⟩
    · intro hnone
      exact absurd hnamed (hnone keyType)
  · rw [not_exists] at hnamed
    rw [selectKeyType_of_not_named hnamed]
    refine ⟨?_, ?_, ?_⟩
    · intro keyType
      refine iff_of_false ?_ (hnamed keyType)
      rintro ⟨succeeded, htrace⟩
      simp at htrace
    · intro keyType hkeyType
      exact absurd hkeyType (hnamed keyType)
    · intro _
      rfl

/-- The names of the two schemes are the only selectors, in any case of their ASCII letters, and the
    empty one; every other selector is refused, and the wallet is not asked for a key. -/
theorem createKey_selects [Suite] (hopen : scene.checked.manager.IsOpen name entry) :
    (∀ selector, KeyType.IsNamedBy .ed25519 selector ↔
      selector = "" ∨ Text.SameUpToCase selector.toList "ED25519".toList) ∧
    (∀ selector, KeyType.IsNamedBy .falcon512 selector ↔
      Text.SameUpToCase selector.toList "FALCON512".toList) ∧
    ∀ selector, Selected entry selector (scene.checked.noted entry.1 (.isLocked false) true)
      ((createKey name selector).outcome scene) := by
  refine ⟨?_, ?_, ?_⟩
  · intro selector
    simp [KeyType.IsNamedBy, KeyType.text]
  · intro selector
    simp [KeyType.IsNamedBy, KeyType.text]
  · intro selector
    exact selected_of_isOpen hopen

/-! ## Two selectors -/

local instance selectingPrimitives : Suite := Suite.plain

theorem exists_isOpen_withEmptyWallet :
    ∃ entry, withEmptyWallet.checked.manager.IsOpen "w" entry := by
  have hfind : (withEmptyWallet.checked.manager.find? "w").isSome = true := by decide +kernel
  obtain ⟨entry, hentry⟩ := Option.isSome_iff_exists.1 hfind
  have hopen : (withEmptyWallet.checked.manager.find? "w").all
      (fun entry => !Backend.isLocked entry.2) = true := by decide +kernel
  rw [hentry] at hopen
  exact ⟨entry, hentry, by simpa using hopen⟩

/-- Small letters name a scheme, a ligature of two capitals does not. -/
theorem createKey_selects_of_small : ∃ entry,
    withEmptyWallet.checked.manager.IsOpen "w" entry ∧
    (∃ succeeded, ((createKey "w" "falcon512").outcome withEmptyWallet).2.trace =
      withEmptyWallet.checked.trace ++
        [⟨entry.1, .isLocked false, true⟩, ⟨entry.1, .createKey .falcon512, succeeded⟩]) ∧
    ((createKey "w" "ﬀalcon512").outcome withEmptyWallet).1 =
      .error (.unsupportedKeyType "FFALCON512") := by
  obtain ⟨entry, hopen⟩ := exists_isOpen_withEmptyWallet
  obtain ⟨-, -, hselected⟩ := createKey_selects hopen
  have hsmall : KeyType.IsNamedBy .falcon512 "falcon512" :=
    selectKeyType_eq_ok_iff.1 (by decide +kernel)
  have hligature : ∀ keyType : KeyType, ¬ keyType.IsNamedBy "ﬀalcon512" := by
    intro keyType hnamed
    have hselect := selectKeyType_eq_ok_iff.2 hnamed
    cases keyType <;> exact absurd hselect (by decide +kernel)
  refine ⟨entry, hopen, ?_, ?_⟩
  · obtain ⟨succeeded, htrace⟩ := ((hselected "falcon512").asked_iff .falcon512).2 hsmall
    exact ⟨succeeded, by simp [htrace, Scene.noted]⟩
  · have hupper : Text.upperCase "ﬀalcon512" = "FFALCON512" := by decide +kernel
    rw [(hselected "ﬀalcon512").refused hligature, hupper]

end Manager

end Custody
