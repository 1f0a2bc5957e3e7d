import Custody.Manager.Keys
import Custody.Proofs.Key.Order
import Custody.Proofs.Manager.Consulting
import Custody.Proofs.Manager.Signing

set_option autoImplicit false

/-! # What all unlocked wallets have

A manager lists the public keys of all its unlocked wallets, and the signatures that they give with
their keys. Both operations go through the registry, and both end in the same four ways
(`Manager.Aggregates`): there is no wallet, there is none that is unlocked, a wallet fails, or the
answer is the union of what the unlocked wallets have. The union is exact and does not depend on the
order of the registry (`Manager.aggregates_union`). -/

namespace Custody

/-- The scene with other wallets in the registry. -/
def Scene.withWallets {W : Type} (scene : Scene W) (wallets : List (WalletName × W)) : Scene W :=
  { scene with manager := { scene.manager with wallets } }

namespace Manager

variable {W : Type} [Backend W]

/-! ## Going through a registry -/

/-- An operation that collects from all wallets of the registry. -/
def gather {α : Type} (collect : List (WalletName × W) → Option α → Operation W (Option α)) :
    Operation W α := do
  checkTimeout
  let wallets := (← get).manager.wallets
  if wallets.isEmpty then throw .noWalletsAvailable
  match ← collect wallets none with
  | some found => return found
  | none => throw .allWalletsLocked

theorem publicKeys_eq_gather : (publicKeys : Operation W KeySet) = gather publicKeysOf := by
  unfold publicKeys gather
  refine bind_congr fun _ => bind_congr fun scene => ?_
  dsimp only
  split
  · rfl
  · refine bind_congr fun found => ?_
    cases found <;> rfl

theorem mySignatures_eq_gather (chain : ChainId) :
    (mySignatures chain : Operation W SignatureSet) = gather (signaturesOf chain.digest) := by
  unfold mySignatures gather
  refine bind_congr fun _ => bind_congr fun scene => ?_
  dsimp only
  split
  · rfl
  · refine bind_congr fun found => ?_
    cases found <;> rfl

/-- How collecting from unlocked wallets ends: with nothing if nothing was found before and there
    are none, with all that was found if no wallet fails, and with an error if one does. -/
def Collects {α : Type} (opened : List (WalletName × W)) (found : Option α)
    (fails : Error → Prop) (isUnion : α → Prop) : Except Error (Option α) → Prop
  | .ok none => found = none ∧ opened = []
  | .ok (some all) => (found = none → opened ≠ []) ∧ (∀ error, ¬ fails error) ∧ isUnion all
  | .error error => fails error

omit [Backend W] in
/-- Once a wallet has added to what was found, the others are collected from. -/
theorem Collects.cons {α : Type} {entry : WalletName × W} {opened : List (WalletName × W)}
    {found : Option α} {first : α} {fails fails' : Error → Prop} {isUnion isUnion' : α → Prop}
    {result : Except Error (Option α)} (h : Collects opened (some first) fails isUnion result)
    (hfails : ∀ error, fails' error ↔ fails error) (hunion : ∀ all, isUnion all → isUnion' all) :
    Collects (entry :: opened) found fails' isUnion' result := by
  rcases result with error | _ | all
  · exact (hfails error).2 h
  · exact absurd h.1 (by simp)
  · obtain ⟨-, hnever, hall⟩ := h
    exact ⟨by simp, fun error hfail => hnever error ((hfails error).1 hfail), hunion all hall⟩

/-- How an operation on all wallets ends. Without wallets, or with none that is unlocked, it says
    so; otherwise it answers unless a wallet fails, and its answer is the union. A wallet may fail
    with any error, and that is the answer then. -/
inductive Aggregates {α : Type} (wallets : List (WalletName × W)) (fails : Error → Prop)
    (isUnion : α → Prop) : Except Error α → Prop
  | empty (h : wallets = []) : Aggregates wallets fails isUnion (.error .noWalletsAvailable)
  | locked (h : wallets ≠ []) (hlocked : ∀ entry ∈ wallets, Backend.isLocked entry.2 = true) :
    Aggregates wallets fails isUnion (.error .allWalletsLocked)
  | failed {error : Error} (hopen : ∃ entry ∈ wallets, Backend.isLocked entry.2 = false)
      (h : fails error) : Aggregates wallets fails isUnion (.error error)
  | gathered {all : α} (hopen : ∃ entry ∈ wallets, Backend.isLocked entry.2 = false)
      (hnever : ∀ error, ¬ fails error) (h : isUnion all) :
    Aggregates wallets fails isUnion (.ok all)

theorem exists_open_iff {entries : List (WalletName × W)} :
    (∃ entry ∈ entries, Backend.isLocked entry.2 = false) ↔ unlocked entries ≠ [] := by
  rw [Ne, unlocked_eq_nil_iff]
  simp

theorem not_exists_open_of_locked {entries : List (WalletName × W)}
    (h : ∀ entry ∈ entries, Backend.isLocked entry.2 = true) :
    ¬ ∃ entry ∈ entries, Backend.isLocked entry.2 = false := by
  rw [exists_open_iff, not_not]
  exact unlocked_eq_nil_iff.2 h

/-- What the answers mean, unless a wallet itself refuses with one of the two errors. -/
structure Distinguishes {α : Type} (wallets : List (WalletName × W)) (fails : Error → Prop)
    (answer : Except Error α) : Prop where
  empty_iff : ¬ fails .noWalletsAvailable → (answer = .error .noWalletsAvailable ↔ wallets = [])
  locked_iff : ¬ fails .allWalletsLocked → (answer = .error .allWalletsLocked ↔
    wallets ≠ [] ∧ ∀ entry ∈ wallets, Backend.isLocked entry.2 = true)
  ok_iff : (∃ all, answer = .ok all) ↔
    (∃ entry ∈ wallets, Backend.isLocked entry.2 = false) ∧ ∀ error, ¬ fails error

namespace Aggregates

variable {α : Type} {wallets : List (WalletName × W)} {fails : Error → Prop} {isUnion : α → Prop}
  {answer : Except Error α}

/-- Unless a wallet says so itself, there are said to be no wallets exactly if there are none. -/
theorem eq_noWalletsAvailable_iff (h : Aggregates wallets fails isUnion answer)
    (hfails : ¬ fails .noWalletsAvailable) :
    answer = .error .noWalletsAvailable ↔ wallets = [] := by
  cases h with
  | empty hempty => simp [hempty]
  | locked hnonempty hlocked => simp [hnonempty]
  | @failed error hopen hfailed =>
    have hnonempty : wallets ≠ [] := by
      rintro rfl
      simp at hopen
    simp only [Except.error.injEq, hnonempty, iff_false]
    rintro rfl
    exact hfails hfailed
  | gathered hopen hnever hunion =>
    simp only [reduceCtorEq, false_iff]
    rintro rfl
    simp at hopen

/-- Unless a wallet says so itself, all wallets are said to be locked exactly if there are some and
    each of them is locked. -/
theorem eq_allWalletsLocked_iff (h : Aggregates wallets fails isUnion answer)
    (hfails : ¬ fails .allWalletsLocked) : answer = .error .allWalletsLocked ↔
      wallets ≠ [] ∧ ∀ entry ∈ wallets, Backend.isLocked entry.2 = true := by
  cases h with
  | empty hempty => simp [hempty]
  | locked hnonempty hlocked => exact iff_of_true rfl ⟨hnonempty, hlocked⟩
  | @failed error hopen hfailed =>
    refine iff_of_false ?_ fun hlocked => not_exists_open_of_locked hlocked.2 hopen
    rintro ⟨⟩
    exact hfails hfailed
  | gathered hopen hnever hunion =>
    exact iff_of_false (by simp) fun hlocked => not_exists_open_of_locked hlocked.2 hopen

/-- There is an answer exactly if a wallet is unlocked and none fails. -/
theorem exists_ok_iff (h : Aggregates wallets fails isUnion answer) :
    (∃ all, answer = .ok all) ↔
      (∃ entry ∈ wallets, Backend.isLocked entry.2 = false) ∧ ∀ error, ¬ fails error := by
  cases h with
  | empty hempty => simp [hempty]
  | locked hnonempty hlocked =>
    exact iff_of_false (by simp) fun hok => not_exists_open_of_locked hlocked hok.1
  | @failed error hopen hfailed =>
    exact iff_of_false (by simp) fun hok => hok.2 error hfailed
  | gathered hopen hnever hunion => exact iff_of_true ⟨_, rfl⟩ ⟨hopen, hnever⟩

theorem distinguishes (h : Aggregates wallets fails isUnion answer) :
    Distinguishes wallets fails answer :=
  ⟨h.eq_noWalletsAvailable_iff, h.eq_allWalletsLocked_iff, h.exists_ok_iff⟩

theorem isUnion_of_ok {all : α} (h : Aggregates wallets fails isUnion (.ok all)) : isUnion all := by
  cases h with
  | gathered hopen hnever hunion => exact hunion

/-- If there is only one union, that is the answer, and nothing else is. -/
theorem eq_ok_iff (h : Aggregates wallets fails isUnion answer)
    (hunique : ∀ all all', isUnion all → isUnion all' → all = all') {all : α} :
    answer = .ok all ↔ ((∃ entry ∈ wallets, Backend.isLocked entry.2 = false) ∧
      ∀ error, ¬ fails error) ∧ isUnion all := by
  rw [← h.exists_ok_iff]
  constructor
  · rintro rfl
    exact ⟨⟨all, rfl⟩, h.isUnion_of_ok⟩
  · rintro ⟨⟨all', rfl⟩, hall⟩
    rw [hunique all' all h.isUnion_of_ok hall]

theorem mono {isUnion' : α → Prop} (h : Aggregates wallets fails isUnion answer)
    (hunion : ∀ all, isUnion all → isUnion' all) : Aggregates wallets fails isUnion' answer := by
  cases h with
  | empty hempty => exact .empty hempty
  | locked hnonempty hlocked => exact .locked hnonempty hlocked
  | failed hopen hfailed => exact .failed hopen hfailed
  | gathered hopen hnever hall => exact .gathered hopen hnever (hunion _ hall)

end Aggregates

/-- What collects from the wallets one after the other aggregates, and leaves the scene as
    collecting does. -/
theorem aggregates_gather {α : Type} {scene scene' : Scene W}
    {collect : List (WalletName × W) → Option α → Operation W (Option α)}
    {result : Except Error (Option α)} {fails : Error → Prop} {isUnion : α → Prop}
    (hcollect : (collect scene.checked.manager.wallets none).outcome scene.checked =
      (result, scene'))
    (hnil : (collect [] none).outcome scene.checked = (.ok none, scene.checked))
    (hfails : ∀ error, fails error → unlocked scene.checked.manager.wallets ≠ [])
    (h : Collects (unlocked scene.checked.manager.wallets) none fails isUnion result) :
    ((gather collect).outcome scene).2 = scene' ∧
    Aggregates scene.checked.manager.wallets fails isUnion ((gather collect).outcome scene).1 := by
  unfold gather
  rw [outcome_checkTimeout_bind, Act.outcome_bind, Act.outcome_get]
  dsimp only
  generalize scene.checked.manager.wallets = wallets at hcollect h hfails ⊢
  by_cases hempty : wallets = []
  · subst hempty
    rw [hnil] at hcollect
    cases hcollect
    exact ⟨rfl, .empty rfl⟩
  · rw [if_neg (by simpa using hempty), Act.outcome_bind, hcollect]
    rcases result with error | _ | all
    · exact ⟨rfl, .failed (exists_open_iff.2 (hfails error h)) h⟩
    · exact ⟨rfl, .locked hempty (unlocked_eq_nil_iff.1 h.2)⟩
    · obtain ⟨hopen, hnever, hunion⟩ := h
      exact ⟨rfl, .gathered (exists_open_iff.2 (hopen rfl)) hnever hunion⟩

/-! ## Public keys -/

/-- The public keys that a wallet lists; none if it fails. -/
def ownKeys (wallet : W) : List PublicKey :=
  match Backend.listPublicKeys wallet with
  | .ok keys => keys.toList
  | .error _ => []

theorem ownKeys_of_ok {wallet : W} {keys : KeySet} (h : Backend.listPublicKeys wallet = .ok keys) :
    ownKeys wallet = keys.toList := by
  unfold ownKeys
  rw [h]

/-- One of the wallets fails to list its keys. -/
def ListingFails (opened : List (WalletName × W)) (error : Error) : Prop :=
  ∃ entry ∈ opened, Backend.listPublicKeys entry.2 = .error error

theorem listingFails_cons_iff {entry : WalletName × W} {opened : List (WalletName × W)}
    {keys : KeySet} (hkeys : Backend.listPublicKeys entry.2 = .ok keys) {error : Error} :
    ListingFails (entry :: opened) error ↔ ListingFails opened error := by
  unfold ListingFails
  rw [List.exists_mem_cons_iff, hkeys]
  simp

/-- The keys are those that were found before and those that one of the wallets lists. -/
def IsKeyUnion (opened : List (WalletName × W)) (found : Option KeySet) (keys : KeySet) : Prop :=
  ∀ key, key ∈ keys ↔ key ∈ found.getD ∅ ∨ ∃ entry ∈ opened, key ∈ ownKeys entry.2

theorem IsKeyUnion.cons {entry : WalletName × W} {opened : List (WalletName × W)}
    {found : Option KeySet} {own keys : KeySet} (hown : Backend.listPublicKeys entry.2 = .ok own)
    (h : IsKeyUnion opened (some ((found.getD ∅).insertMany own.toList)) keys) :
    IsKeyUnion (entry :: opened) found keys := by
  intro key
  rw [h key, List.exists_mem_cons_iff, ownKeys_of_ok hown, Option.getD_some,
    Std.ExtTreeSet.mem_insertMany_list, Std.ExtTreeSet.contains_toList, or_assoc,
    Std.ExtTreeSet.mem_toList, Std.ExtTreeSet.contains_iff_mem]

/-- Public keys are collected from the unlocked wallets. -/
theorem collects_publicKeysOf (entries : List (WalletName × W)) (found : Option KeySet)
    (scene : Scene W) :
    Collects (unlocked entries) found (ListingFails (unlocked entries))
      (IsKeyUnion (unlocked entries) found) ((publicKeysOf entries found).outcome scene).1 := by
  induction entries generalizing found scene with
  | nil =>
    cases found with
    | none => exact ⟨rfl, rfl⟩
    | some keys => exact ⟨by simp, by simp [ListingFails, unlocked], by simp [IsKeyUnion, unlocked]⟩
  | cons entry rest ih =>
    unfold publicKeysOf
    rw [Act.outcome_bind, outcome_askLocked]
    by_cases hlocked : Backend.isLocked entry.2 = true
    · simp only [hlocked, if_true]
      rw [unlocked_cons_of_locked hlocked]
      exact ih found _
    · rw [Bool.not_eq_true] at hlocked
      simp only [hlocked, Bool.false_eq_true, if_false, Act.outcome_bind, outcome_ask]
      rw [unlocked_cons_of_open hlocked]
      cases hown : Backend.listPublicKeys entry.2 with
      | error error => exact ⟨entry, List.mem_cons_self, hown⟩
      | ok own => exact (ih _ _).cons (fun _ => listingFails_cons_iff hown) fun _ => .cons hown

/-! ## Signatures -/

/-- Every wallet with each of the keys that it lists. -/
def holdings (opened : List (WalletName × W)) : List ((WalletName × W) × PublicKey) :=
  opened.flatMap fun entry => (ownKeys entry.2).map (entry, ·)

theorem holdings_cons (entry : WalletName × W) (opened : List (WalletName × W)) :
    holdings (entry :: opened) = (ownKeys entry.2).map (entry, ·) ++ holdings opened :=
  List.flatMap_cons

/-- One of the questions was answered with the error. -/
def AnswerFails (questions : List (Question W)) (error : Error) : Prop :=
  ∃ question ∈ questions, question.answer = .error error

/-- The signatures are those that were found before and those that were given as answers. -/
def IsSignatureUnion (questions : List (Question W)) (found : Option SignatureSet)
    (signatures : SignatureSet) : Prop :=
  ∀ signature, signature ∈ signatures ↔ signature ∈ found.getD ∅ ∨
    ∃ question ∈ questions, question.answer = .ok (some signature)

/-- How it ends if wallets are asked for signatures under keys: all of them are asked and the
    answers are collected, or one of them is the last to be asked since it fails. -/
def Gives (pairs : List ((WalletName × W) × PublicKey)) (found : SignatureSet)
    (questions : List (Question W)) : Except Error SignatureSet → Prop
  | .ok signatures => questions.map Question.asked = pairs ∧
    (∀ error, ¬ AnswerFails questions error) ∧ IsSignatureUnion questions (some found) signatures
  | .error error => questions.map Question.asked <+: pairs ∧ AnswerFails questions error

omit [Backend W] in
theorem Gives.cons {entry : WalletName × W} {key : PublicKey} {answer : Option Signature}
    {pairs : List ((WalletName × W) × PublicKey)} {found : SignatureSet}
    {questions : List (Question W)} {result : Except Error SignatureSet}
    (h : Gives pairs (answer.elim found found.insert) questions result) :
    Gives ((entry, key) :: pairs) found (⟨entry, key, .ok answer⟩ :: questions) result := by
  have hfails : ∀ error, AnswerFails (⟨entry, key, .ok answer⟩ :: questions) error ↔
      AnswerFails questions error := by simp [AnswerFails]
  cases result with
  | error error => exact ⟨List.cons_prefix_cons.2 ⟨rfl, h.1⟩, (hfails error).2 h.2⟩
  | ok signatures =>
    obtain ⟨hasked, hnever, hunion⟩ := h
    refine ⟨congrArg ((entry, key) :: ·) hasked,
      fun error => (hfails error).not.2 (hnever error), ?_⟩
    intro signature
    rw [hunion signature, List.exists_mem_cons_iff, ← or_assoc]
    refine or_congr_left ?_
    cases answer with
    | none => simp
    | some given =>
      simp only [Option.elim_some, Option.getD_some, Std.ExtTreeSet.mem_insert,
        Std.LawfulEqOrd.compare_eq_iff_eq, Except.ok.injEq, Option.some.injEq, or_comm]

/-- A wallet is asked for a signature under each of some keys. -/
theorem exists_gives_of_signaturesFor (entry : WalletName × W) (digest : Digest)
    (keys : List PublicKey) (found : SignatureSet) (scene : Scene W) :
    ∃ questions result scene',
      (signaturesFor entry digest keys found).outcome scene = (result, scene') ∧
      scene.Consulted digest questions scene' ∧
      Gives (keys.map (entry, ·)) found questions result := by
  induction keys generalizing found scene with
  | nil =>
    exact ⟨[], .ok found, scene, rfl, .refl digest scene, rfl, by simp [AnswerFails],
      by simp [IsSignatureUnion]⟩
  | cons key keys ih =>
    unfold signaturesFor
    obtain ⟨answer, scene₁, hask, hasked⟩ := consulted_askSignature entry digest key scene
    rw [Act.outcome_bind, hask]
    rcases answer with error | answer
    · exact ⟨[⟨entry, key, .error error⟩], .error error, scene₁, rfl, hasked,
        ⟨_, rfl⟩, _, List.mem_cons_self, rfl⟩
    · obtain ⟨questions, result, scene', hrest, hconsulted, hgives⟩ :=
        ih (answer.elim found found.insert) scene₁
      refine ⟨_, result, scene', ?_, hasked.trans hconsulted, hgives.cons⟩
      cases answer <;> exact hrest

/-- How collecting signatures from unlocked wallets ends: they are asked for signatures under their
    own keys in order, for all of them unless a wallet fails. -/
structure CollectsSignatures (opened : List (WalletName × W)) (found : Option SignatureSet)
    (questions : List (Question W)) (result : Except Error (Option SignatureSet)) : Prop where
  asked : questions.map Question.asked <+: holdings opened
  collects : Collects opened found
    (fun error => ListingFails opened error ∨ AnswerFails questions error)
    (fun signatures => questions.map Question.asked = holdings opened ∧
      IsSignatureUnion questions found signatures) result

namespace CollectsSignatures

variable {entry : WalletName × W} {opened : List (WalletName × W)} {found : Option SignatureSet}
  {questions rest : List (Question W)} {result : Except Error (Option SignatureSet)}
  {own : KeySet} {signatures : SignatureSet} {error : Error}

theorem nil : CollectsSignatures ([] : List (WalletName × W)) found [] (.ok found) := by
  refine ⟨List.nil_prefix, ?_⟩
  cases found with
  | none => exact ⟨rfl, rfl⟩
  | some signatures =>
    exact ⟨by simp, by simp [ListingFails, AnswerFails], rfl, by simp [IsSignatureUnion]⟩

/-- A wallet fails to list its keys. -/
theorem unlisted (h : Backend.listPublicKeys entry.2 = .error error) :
    CollectsSignatures (entry :: opened) found [] (.error error) :=
  ⟨List.nil_prefix, .inl ⟨entry, List.mem_cons_self, h⟩⟩

/-- A wallet fails to sign under one of its keys. -/
theorem unsigned (hown : Backend.listPublicKeys entry.2 = .ok own)
    (h : Gives (own.toList.map (entry, ·)) (found.getD ∅) questions (.error error)) :
    CollectsSignatures (entry :: opened) found questions (.error error) := by
  refine ⟨?_, .inr h.2⟩
  rw [holdings_cons, ownKeys_of_ok hown]
  exact h.1.trans (List.prefix_append _ _)

/-- A wallet has signed under all of its keys, and the others are asked. -/
theorem cons (hown : Backend.listPublicKeys entry.2 = .ok own)
    (h : Gives (own.toList.map (entry, ·)) (found.getD ∅) questions (.ok signatures))
    (hrest : CollectsSignatures opened (some signatures) rest result) :
    CollectsSignatures (entry :: opened) found (questions ++ rest) result := by
  obtain ⟨hpairs, hnever, hunion⟩ := h
  refine ⟨?_, hrest.collects.cons ?_ ?_⟩
  · rw [List.map_append, hpairs, holdings_cons, ownKeys_of_ok hown]
    exact (List.prefix_append_right_inj _).2 hrest.asked
  · intro error
    have hfails : AnswerFails (questions ++ rest) error ↔ AnswerFails rest error := by
      have hnone := hnever error
      simp only [AnswerFails, List.mem_append, or_and_right, exists_or] at hnone ⊢
      exact or_iff_right hnone
    rw [listingFails_cons_iff hown, hfails]
  · rintro all ⟨hall, hmem⟩
    refine ⟨?_, fun signature => ?_⟩
    · rw [List.map_append, hpairs, hall, holdings_cons, ownKeys_of_ok hown]
    · rw [hmem signature, Option.getD_some, hunion signature, Option.getD_some]
      simp only [List.mem_append, or_and_right, exists_or, or_assoc]

end CollectsSignatures

/-- Signatures are collected from the unlocked wallets. -/
theorem exists_collects_of_signaturesOf (digest : Digest) (entries : List (WalletName × W))
    (found : Option SignatureSet) (scene : Scene W) :
    ∃ questions result scene',
      (signaturesOf digest entries found).outcome scene = (result, scene') ∧
      scene.Consulted digest questions scene' ∧
      CollectsSignatures (unlocked entries) found questions result := by
  induction entries generalizing found scene with
  | nil => exact ⟨[], .ok found, scene, rfl, .refl digest scene, .nil⟩
  | cons entry rest ih =>
    have hlooked : scene.Consulted digest []
        (scene.noted entry.1 (.isLocked (Backend.isLocked entry.2)) true) :=
      .noted (by simp [Request.kind])
    unfold signaturesOf
    rw [Act.outcome_bind, outcome_askLocked]
    by_cases hlocked : Backend.isLocked entry.2 = true
    · rw [hlocked] at hlooked ⊢
      rw [unlocked_cons_of_locked hlocked]
      obtain ⟨questions, result, scene', hrest, hconsulted, hcollects⟩ := ih found _
      exact ⟨questions, result, scene', hrest, hlooked.trans hconsulted, hcollects⟩
    · rw [Bool.not_eq_true] at hlocked
      rw [hlocked] at hlooked ⊢
      rw [unlocked_cons_of_open hlocked]
      have hlisted : scene.Consulted digest [] ((scene.noted entry.1 (.isLocked false) true).noted
          entry.1 .listPublicKeys (Backend.listPublicKeys entry.2).isOk) :=
        hlooked.trans (.noted (by simp [Request.kind]))
      simp only [Bool.false_eq_true, if_false, Act.outcome_bind, outcome_ask]
      generalize Scene.noted _ entry.1 .listPublicKeys _ = scene₁ at hlisted ⊢
      cases hown : Backend.listPublicKeys entry.2 with
      | error error => exact ⟨[], .error error, scene₁, rfl, hlisted, .unlisted hown⟩
      | ok own =>
        obtain ⟨asked, given, scene₂, hfor, hconsulted, hgives⟩ :=
          exists_gives_of_signaturesFor entry digest own.toList (found.getD ∅) scene₁
        have hconsulted := hlisted.trans hconsulted
        dsimp only
        rw [hfor]
        cases given with
        | error error => exact ⟨asked, .error error, scene₂, rfl, hconsulted, .unsigned hown hgives⟩
        | ok signatures =>
          obtain ⟨questions, result, scene', hrest, hconsulted', hcollects⟩ :=
            ih (some signatures) scene₂
          exact ⟨asked ++ questions, result, scene', hrest, hconsulted.trans hconsulted',
            .cons hown hgives hcollects⟩

/-! ## The union -/

section

variable {scene : Scene W} {chain : ChainId}

theorem aggregates_publicKeys (scene : Scene W) :
    Aggregates scene.checked.manager.wallets
      (ListingFails (unlocked scene.checked.manager.wallets))
      (fun keys => ∀ key, key ∈ keys ↔
        ∃ entry ∈ unlocked scene.checked.manager.wallets, key ∈ ownKeys entry.2)
      ((publicKeys : Operation W KeySet).outcome scene).1 := by
  rw [publicKeys_eq_gather]
  refine (aggregates_gather rfl rfl ?_ (collects_publicKeysOf _ none scene.checked)).2.mono ?_
  · rintro error ⟨entry, hentry, -⟩
    exact List.ne_nil_of_mem hentry
  · intro keys hunion key
    simpa using hunion key

theorem aggregates_mySignatures (scene : Scene W) (chain : ChainId) :
    ∃ questions, scene.checked.Consulted chain.digest questions
        ((mySignatures chain).outcome scene).2 ∧
      questions.map Question.asked <+: holdings (unlocked scene.checked.manager.wallets) ∧
      Aggregates scene.checked.manager.wallets
        (fun error => ListingFails (unlocked scene.checked.manager.wallets) error ∨
          AnswerFails questions error)
        (fun signatures =>
          questions.map Question.asked = holdings (unlocked scene.checked.manager.wallets) ∧
          ∀ signature, signature ∈ signatures ↔
            ∃ question ∈ questions, question.answer = .ok (some signature))
        ((mySignatures chain).outcome scene).1 := by
  obtain ⟨questions, result, scene', hdone, hconsulted, hcollects⟩ :=
    exists_collects_of_signaturesOf chain.digest scene.checked.manager.wallets none scene.checked
  have hfails : ∀ error, ListingFails (unlocked scene.checked.manager.wallets) error ∨
      AnswerFails questions error → unlocked scene.checked.manager.wallets ≠ [] := by
    rintro error (⟨entry, hentry, -⟩ | ⟨question, hquestion, -⟩) hnone
    · exact List.ne_nil_of_mem hentry hnone
    · -- nobody is asked where nobody is unlocked
      have hasked := hcollects.asked.subset (List.mem_map_of_mem hquestion)
      rw [hnone] at hasked
      exact absurd hasked (by simp [holdings])
  obtain ⟨hscene, haggregates⟩ := aggregates_gather hdone rfl hfails hcollects.collects
  rw [mySignatures_eq_gather]
  refine ⟨questions, hscene ▸ hconsulted, hcollects.asked, haggregates.mono ?_⟩
  rintro signatures ⟨hall, hunion⟩
  exact ⟨hall, fun signature => by simpa using hunion signature⟩

/-! ## Signing without the random source -/

/-- A wallet may answer so if it is asked for a signature under a key. -/
def MayAnswer (digest : Digest) (pair : (WalletName × W) × PublicKey)
    (answer : Except Error (Option Signature)) : Prop :=
  ∃ entropy, ((Backend.trySign pair.1.2 digest pair.2).run entropy).1 = answer

/-- There is one answer only, whatever the random source. -/
def Deterministic (digest : Digest) (pair : (WalletName × W) × PublicKey) : Prop :=
  ∀ answer answer', MayAnswer digest pair answer → MayAnswer digest pair answer' →
    answer = answer'

/-- The union of wallets that do not need the random source does not depend on who is asked
    first. -/
theorem aggregates_of_deterministic
    (h : ∀ pair ∈ holdings (unlocked scene.checked.manager.wallets),
      Deterministic chain.digest pair) :
    Aggregates scene.checked.manager.wallets
      (fun error => ListingFails (unlocked scene.checked.manager.wallets) error ∨
        ∃ pair ∈ holdings (unlocked scene.checked.manager.wallets),
          MayAnswer chain.digest pair (.error error))
      (fun signatures => ∀ signature, signature ∈ signatures ↔
        ∃ pair ∈ holdings (unlocked scene.checked.manager.wallets),
          MayAnswer chain.digest pair (.ok (some signature)))
      ((mySignatures chain).outcome scene).1 := by
  obtain ⟨questions, hconsulted, hasked, haggregates⟩ := aggregates_mySignatures scene chain
  obtain ⟨entropy, -, hanswered⟩ := hconsulted.world
  have hmay : ∀ question ∈ questions, MayAnswer chain.digest question.asked question.answer :=
    fun question hquestion => hanswered.exists_run hquestion
  generalize ((mySignatures chain).outcome scene).1 = answer at haggregates ⊢
  cases haggregates with
  | empty hempty => exact .empty hempty
  | locked hnonempty hlocked => exact .locked hnonempty hlocked
  | failed hopen hfailed =>
    refine .failed hopen (hfailed.imp_right ?_)
    rintro ⟨question, hquestion, hanswer⟩
    exact ⟨question.asked, hasked.subset (List.mem_map_of_mem hquestion),
      hanswer ▸ hmay question hquestion⟩
  | gathered hopen hnever hunion =>
    obtain ⟨hall, hmem⟩ := hunion
    -- whatever a wallet may answer for one of its keys is what it did answer
    have hanswer : ∀ answer, (∃ question ∈ questions, question.answer = answer) ↔
        ∃ pair ∈ holdings (unlocked scene.checked.manager.wallets),
          MayAnswer chain.digest pair answer := by
      intro answer
      rw [← hall]
      simp only [List.mem_map, exists_exists_and_eq_and]
      refine exists_congr fun question => and_congr_right fun hquestion => ?_
      have hpair := h question.asked (hall ▸ List.mem_map_of_mem hquestion)
      exact ⟨fun heq => heq ▸ hmay question hquestion,
        fun hmay' => hpair _ _ (hmay question hquestion) hmay'⟩
    refine .gathered hopen ?_ fun signature => (hmem signature).trans (hanswer _)
    rintro error (hlisting | hpair)
    · exact hnever error (.inl hlisting)
    · exact hnever error (.inr ((hanswer _).2 hpair))

/-! ## Registries in another order -/

omit [Backend W] in
theorem Distinct.perm {manager : Manager W} {wallets : List (WalletName × W)}
    (h : manager.Distinct) (hperm : wallets.Perm manager.wallets) :
    ({ manager with wallets } : Manager W).Distinct :=
  (hperm.map Prod.fst).nodup_iff.2 h

/-- After the look at the timeout the same wallets are unlocked. -/
theorem perm_checked {wallets : List (WalletName × W)} (hdistinct : scene.manager.Distinct)
    (hperm : wallets.Perm scene.manager.wallets) :
    (scene.withWallets wallets).checked.manager.wallets.Perm scene.checked.manager.wallets := by
  have hdistinct' : (scene.withWallets wallets).manager.Distinct := hdistinct.perm hperm
  rw [(Scene.checked_eq hdistinct).2, (Scene.checked_eq hdistinct').2]
  unfold Scene.withWallets
  dsimp only
  split
  · exact hperm.map _
  · exact hperm

theorem mem_holdings {opened : List (WalletName × W)} {pair : (WalletName × W) × PublicKey} :
    pair ∈ holdings opened ↔ pair.1 ∈ opened ∧ pair.2 ∈ ownKeys pair.1.2 := by
  unfold holdings
  obtain ⟨entry, key⟩ := pair
  simp only [List.mem_flatMap, List.mem_map, Prod.mk.injEq]
  constructor
  · rintro ⟨other, hother, key', hkey, rfl, rfl⟩
    exact ⟨hother, hkey⟩
  · rintro ⟨hentry, hkey⟩
    exact ⟨entry, hentry, key, hkey, rfl, rfl⟩

/-- What holds of the wallets of a registry one by one is not changed by their order. -/
theorem Aggregates.eq_ok_iff_of_perm {α : Type} {wallets wallets' : List (WalletName × W)}
    {fails fails' : Error → Prop} {isUnion isUnion' : α → Prop} {answer answer' : Except Error α}
    (h : Aggregates wallets fails isUnion answer) (h' : Aggregates wallets' fails' isUnion' answer')
    (hperm : wallets'.Perm wallets) (hfails : ∀ error, fails' error ↔ fails error)
    (hunion : ∀ all, isUnion' all ↔ isUnion all)
    (hunique : ∀ all all', isUnion all → isUnion all' → all = all') (all : α) :
    answer' = .ok all ↔ answer = .ok all := by
  have hunique' : ∀ all all', isUnion' all → isUnion' all' → all = all' := by
    intro all all' hall hall'
    exact hunique all all' ((hunion all).1 hall) ((hunion all').1 hall')
  rw [h.eq_ok_iff hunique, h'.eq_ok_iff hunique']
  simp only [hperm.mem_iff, hfails, hunion]

theorem publicKeys_perm {wallets : List (WalletName × W)} (hdistinct : scene.manager.Distinct)
    (hperm : wallets.Perm scene.manager.wallets) (keys : KeySet) :
    ((publicKeys : Operation W KeySet).outcome (scene.withWallets wallets)).1 = .ok keys ↔
      ((publicKeys : Operation W KeySet).outcome scene).1 = .ok keys := by
  have hchecked := perm_checked hdistinct hperm
  have hopened : (unlocked (scene.withWallets wallets).checked.manager.wallets).Perm
      (unlocked scene.checked.manager.wallets) := hchecked.filter _
  refine (aggregates_publicKeys scene).eq_ok_iff_of_perm (aggregates_publicKeys _) hchecked
    (fun error => ?_) (fun keys => ?_) (fun keys keys' hkeys hkeys' => ?_) keys
  · simp only [ListingFails, hopened.mem_iff]
  · simp only [hopened.mem_iff]
  · exact Std.ExtTreeSet.ext_mem fun key => (hkeys key).trans (hkeys' key).symm

theorem mySignatures_perm {wallets : List (WalletName × W)} (hdistinct : scene.manager.Distinct)
    (hperm : wallets.Perm scene.manager.wallets)
    (hdeterministic : ∀ pair ∈ holdings (unlocked scene.checked.manager.wallets),
      Deterministic chain.digest pair) (signatures : SignatureSet) :
    ((mySignatures chain).outcome (scene.withWallets wallets)).1 = .ok signatures ↔
      ((mySignatures chain).outcome scene).1 = .ok signatures := by
  have hchecked := perm_checked hdistinct hperm
  have hopened : (unlocked (scene.withWallets wallets).checked.manager.wallets).Perm
      (unlocked scene.checked.manager.wallets) := hchecked.filter _
  have hheld : ∀ pair,
      pair ∈ holdings (unlocked (scene.withWallets wallets).checked.manager.wallets) ↔
        pair ∈ holdings (unlocked scene.checked.manager.wallets) := by
    intro pair
    rw [mem_holdings, mem_holdings, hopened.mem_iff]
  refine (aggregates_of_deterministic hdeterministic).eq_ok_iff_of_perm
    (aggregates_of_deterministic fun pair hpair => hdeterministic pair ((hheld pair).1 hpair))
    hchecked (fun error => ?_) (fun signatures => ?_) (fun all all' hall hall' => ?_) signatures
  · simp only [ListingFails, hopened.mem_iff, hheld]
  · simp only [hheld]
  · exact Std.ExtTreeSet.ext_mem fun signature => (hall signature).trans (hall' signature).symm

/-! ## Aggregation -/

/-- The public keys and the signatures of a manager's wallets, whatever the wallets answer. After
    the look at the timeout, both operations end as `Aggregates` says; unless a wallet itself
    refuses with the same error, they refuse exactly if there is no wallet or none that is unlocked,
    and they answer exactly if one is unlocked and none fails. The public keys are those that the
    unlocked wallets list, in ascending order and each once. The signatures are those that the
    unlocked wallets give for their own keys, each wallet being asked once for each of them; under a
    key for which all its holders have the same one signature, no other is given. The order of the
    registry does not matter: the keys are the same in any order, and so are the signatures of
    wallets that sign without the random source. -/
theorem aggregates_union (scene : Scene W) (chain : ChainId) :
    (Aggregates scene.checked.manager.wallets
        (ListingFails (unlocked scene.checked.manager.wallets))
        (fun keys => keys.toList.Pairwise PublicKey.Precedes ∧ ∀ key, key ∈ keys ↔
          ∃ entry ∈ unlocked scene.checked.manager.wallets, key ∈ ownKeys entry.2)
        ((publicKeys : Operation W KeySet).outcome scene).1 ∧
      Distinguishes scene.checked.manager.wallets
        (ListingFails (unlocked scene.checked.manager.wallets))
        ((publicKeys : Operation W KeySet).outcome scene).1) ∧
    (∃ questions, scene.checked.Consulted chain.digest questions
        ((mySignatures chain).outcome scene).2 ∧
      questions.map Question.asked <+: holdings (unlocked scene.checked.manager.wallets) ∧
      Aggregates scene.checked.manager.wallets
        (fun error => ListingFails (unlocked scene.checked.manager.wallets) error ∨
          AnswerFails questions error)
        (fun signatures =>
          questions.map Question.asked = holdings (unlocked scene.checked.manager.wallets) ∧
          ∀ signature, signature ∈ signatures ↔
            ∃ question ∈ questions, question.answer = .ok (some signature))
        ((mySignatures chain).outcome scene).1 ∧
      Distinguishes scene.checked.manager.wallets
        (fun error => ListingFails (unlocked scene.checked.manager.wallets) error ∨
          AnswerFails questions error)
        ((mySignatures chain).outcome scene).1 ∧
      ∀ key signature,
        (∀ pair ∈ holdings (unlocked scene.checked.manager.wallets), pair.2 = key →
          ∀ answer, MayAnswer chain.digest pair answer → answer = .ok (some signature)) →
        ∀ question ∈ questions, question.key = key → question.answer = .ok (some signature)) ∧
    (scene.manager.Distinct → ∀ wallets : List (WalletName × W),
      wallets.Perm scene.manager.wallets →
      (∀ keys,
        ((publicKeys : Operation W KeySet).outcome (scene.withWallets wallets)).1 = .ok keys ↔
          ((publicKeys : Operation W KeySet).outcome scene).1 = .ok keys) ∧
      ((∀ pair ∈ holdings (unlocked scene.checked.manager.wallets),
          Deterministic chain.digest pair) →
        ∀ signatures,
          ((mySignatures chain).outcome (scene.withWallets wallets)).1 = .ok signatures ↔
            ((mySignatures chain).outcome scene).1 = .ok signatures)) := by
  have hkeys := aggregates_publicKeys scene
  obtain ⟨questions, hconsulted, hasked, haggregates⟩ := aggregates_mySignatures scene chain
  refine ⟨⟨hkeys.mono fun keys hunion => ⟨keys.pairwise_precedes, hunion⟩, hkeys.distinguishes⟩,
    ⟨questions, hconsulted, hasked, haggregates, haggregates.distinguishes, ?_⟩, ?_⟩
  · rintro key signature hsole question hquestion rfl
    obtain ⟨entropy, -, hanswered⟩ := hconsulted.world
    exact hsole question.asked (hasked.subset (List.mem_map_of_mem hquestion)) rfl _
      (hanswered.exists_run hquestion)
  · intro hdistinct wallets hperm
    exact ⟨publicKeys_perm hdistinct hperm, mySignatures_perm hdistinct hperm⟩

end

/-! ## Soft wallets with one key -/

/-- A soft wallet signs under an Ed25519 key without the random source, and any two with the same
    seed sign alike. -/
theorem eq_of_mayAnswer_ofSeed [Suite] {entry : WalletName × SoftWallet} {digest : Digest}
    {key : PublicKey} {seed : Block 32} {answer : Except Error (Option Signature)}
    (hstored : entry.2.stored? key = some (.ofSeed seed))
    (h : MayAnswer digest (entry, key) answer) :
    answer = .ok (some ⟨.ed25519, (Suite.ed25519Sign seed digest.val).val⟩) := by
  obtain ⟨entropy, hrun⟩ := h
  have hsign : (entry.2.trySign digest key).run entropy = _ :=
    SoftWallet.trySign_of_stored? hstored entropy
  rw [PrivateKey.sign_ofSeed] at hsign
  rw [← hrun]
  exact congrArg Prod.fst hsign

local instance gatheringPrimitives : Suite := Suite.plain

/-- An unlocked wallet with one Ed25519 key. -/
def soleHolder : SoftWallet :=
  ⟨.ofString "d/w.wallet", .light, none, some ⟨default, .ofKeys [.ofSeed default]⟩⟩

/-- A manager of two wallets that hold the same key. -/
def twoHolders : Scene SoftWallet :=
  ⟨⟨.ofString "d", .light, [(⟨"a", by decide⟩, soleHolder), (⟨"b", by decide⟩, soleHolder)],
    .disabled, .manual, none⟩, .blank, []⟩

theorem deterministic_twoHolders (digest : Digest) :
    ∀ pair ∈ holdings (unlocked twoHolders.checked.manager.wallets),
      Deterministic digest pair := by
  rintro ⟨entry, key⟩ hpair answer answer' hanswer hanswer'
  obtain ⟨hentry, hkey⟩ := mem_holdings.1 hpair
  have hwallet : ∀ entry ∈ twoHolders.manager.wallets, entry.2 = soleHolder := by simp [twoHolders]
  have hstored : ∀ key ∈ ownKeys soleHolder, soleHolder.stored? key = some (.ofSeed default) := by
    decide +kernel
  have hentry := hwallet entry (mem_unlocked.1 hentry).1
  rw [← hentry] at hstored
  rw [eq_of_mayAnswer_ofSeed (hstored key hkey) hanswer,
    eq_of_mayAnswer_ofSeed (hstored key hkey) hanswer']

/-- Two wallets with the same key give one signature, in either order. -/
theorem aggregates_union_of_twoHolders :
    twoHolders.manager.Distinct ∧
      twoHolders.manager.wallets.reverse.Perm twoHolders.manager.wallets ∧
      (∀ pair ∈ holdings (unlocked twoHolders.checked.manager.wallets),
        Deterministic default pair) ∧
      ∃ signatures : SignatureSet, signatures.toList.length = 1 ∧
        ((mySignatures ⟨default⟩).outcome twoHolders).1 = .ok signatures ∧
        ((mySignatures ⟨default⟩).outcome
          (twoHolders.withWallets twoHolders.manager.wallets.reverse)).1 = .ok signatures := by
  have hdistinct : twoHolders.manager.Distinct := by
    unfold Distinct twoHolders
    decide
  have hperm : twoHolders.manager.wallets.reverse.Perm twoHolders.manager.wallets :=
    List.reverse_perm _
  have hlength : ((((mySignatures ⟨default⟩).outcome twoHolders).1.map
      fun signatures : SignatureSet => signatures.toList.length).toOption) = some 1 := by
    decide +kernel
  refine ⟨hdistinct, hperm, deterministic_twoHolders default, ?_⟩
  obtain ⟨-, -, hreordered⟩ := aggregates_union twoHolders ⟨default⟩
  obtain ⟨-, hsignatures⟩ := hreordered hdistinct _ hperm
  cases hanswer : ((mySignatures ⟨default⟩).outcome twoHolders).1 with
  | error error =>
    rw [hanswer] at hlength
    exact absurd hlength (by simp [Except.map, Except.toOption])
  | ok signatures =>
    rw [hanswer] at hlength
    refine ⟨signatures, by simpa [Except.map, Except.toOption] using hlength, rfl, ?_⟩
    exact (hsignatures (deterministic_twoHolders default) signatures).2 hanswer

end Manager

end Custody
