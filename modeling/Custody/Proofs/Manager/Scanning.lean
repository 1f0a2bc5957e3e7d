import Custody.Manager.Keys
import Custody.Proofs.Digest
import Custody.Proofs.Key.Order
import Custody.Proofs.Manager.Consulting

set_option autoImplicit false

/-! # Signing a transaction, wallet by wallet

A transaction is signed under one key after the other, and each key is looked for in the unlocked
wallets in registration order, until one of them has a signature or fails. A `Manager.Scan` is such
a search: the wallets that had nothing, the one at which it stopped, and those that were never
asked. `Manager.signTransaction_scans` tells the whole operation by its scans, for wallets that may
answer anything. -/

namespace Custody.Manager

variable {W : Type}

/-! ## Looking for a key -/

/-- A search for a key among unlocked wallets. The wallets in front were asked and have no signature
    under the key; it stops at the first one that answers with a signature or an error, and those
    behind are not asked. Without such a wallet all of them were asked. -/
structure Scan (opened : List (WalletName × W)) where
  key : PublicKey
  passed : List (WalletName × W)
  stop : Option ((WalletName × W) × Except Error Signature)
  unasked : List (WalletName × W)
  opened_eq : opened = passed ++ (stop.map Prod.fst).toList ++ unasked
  exhausted : stop = none → unasked = []

namespace Scan

variable {entry : WalletName × W} {opened : List (WalletName × W)}

/-- The questions that were asked, in their order. -/
def questions (scan : Scan opened) : List (Question W) :=
  scan.passed.map (fun entry => ⟨entry, scan.key, .ok none⟩) ++
    (scan.stop.map fun (entry, answer) => ⟨entry, scan.key, answer.map some⟩).toList

/-- What was found; nothing if no wallet stopped the search. -/
def answer (scan : Scan opened) : Except Error (Option Signature) :=
  match scan.stop with
  | some (_, answer) => answer.map some
  | none => .ok none

/-- What comes of the key: the key is missing if no wallet stopped the search. -/
def verdict (scan : Scan opened) : Except Error Signature :=
  match scan.stop with
  | some (_, answer) => answer
  | none => .error (.missingPublicKey scan.key)

/-- The search among no wallets. -/
def nowhere (key : PublicKey) : Scan ([] : List (WalletName × W)) :=
  ⟨key, [], none, [], rfl, fun _ => rfl⟩

/-- A search that goes past one more wallet first. -/
def past (entry : WalletName × W) (scan : Scan opened) : Scan (entry :: opened) where
  key := scan.key
  passed := entry :: scan.passed
  stop := scan.stop
  unasked := scan.unasked
  opened_eq := congrArg (entry :: ·) scan.opened_eq
  exhausted := scan.exhausted

/-- A search that stops at the first wallet. -/
def here (key : PublicKey) (entry : WalletName × W) (opened : List (WalletName × W))
    (answer : Except Error Signature) : Scan (entry :: opened) :=
  ⟨key, [], some (entry, answer), opened, rfl, by simp⟩

theorem questions_past (scan : Scan opened) :
    (scan.past entry).questions = ⟨entry, scan.key, .ok none⟩ :: scan.questions := rfl

end Scan

variable [Backend W] {scene : Scene W} {opened : List (WalletName × W)}

/-- The first signature is found by a scan of the unlocked wallets. -/
theorem exists_scan_of_firstSignature (digest : Digest) (key : PublicKey)
    (entries : List (WalletName × W)) (scene : Scene W) :
    ∃ (scan : Scan (unlocked entries)) (scene' : Scene W), scan.key = key ∧
      (firstSignature digest key entries).outcome scene = (scan.answer, scene') ∧
      scene.Consulted digest scan.questions scene' := by
  induction entries generalizing scene with
  | nil => exact ⟨.nowhere key, scene, rfl, rfl, .refl digest scene⟩
  | cons entry rest ih =>
    have hlooked : scene.Consulted digest []
        (scene.noted entry.1 (.isLocked (Backend.isLocked entry.2)) true) :=
      .noted (by simp [Request.kind])
    unfold firstSignature
    rw [Act.outcome_bind, outcome_askLocked]
    by_cases hlocked : Backend.isLocked entry.2 = true
    · simp only [hlocked, if_true]
      rw [unlocked_cons_of_locked hlocked]
      rw [hlocked] at hlooked
      obtain ⟨scan, scene', hkey, hrest, hconsulted⟩ := ih _
      exact ⟨scan, scene', hkey, hrest, hlooked.trans hconsulted⟩
    · rw [Bool.not_eq_true] at hlocked
      simp only [hlocked, Bool.false_eq_true, if_false]
      rw [unlocked_cons_of_open hlocked]
      rw [hlocked] at hlooked
      obtain ⟨answer, scene₁, hask, hasked⟩ := consulted_askSignature entry digest key
        (scene.noted entry.1 (.isLocked false) true)
      rw [Act.outcome_bind, hask]
      rcases answer with error | _ | signature
      · exact ⟨.here key entry _ (.error error), scene₁, rfl, rfl, hlooked.trans hasked⟩
      · -- the wallet has nothing, and the others are asked
        obtain ⟨scan, scene', hkey, hrest, hconsulted⟩ := ih scene₁
        refine ⟨scan.past entry, scene', hkey, hrest, ?_⟩
        rw [Scan.questions_past, hkey]
        exact hlooked.trans (hasked.trans hconsulted)
      · exact ⟨.here key entry _ (.ok signature), scene₁, rfl, rfl, hlooked.trans hasked⟩

/-- A key is signed with as a scan of the unlocked wallets says. -/
theorem exists_scan_of_signatureOf (hopened : unlocked scene.manager.wallets = opened)
    (digest : Digest) (key : PublicKey) :
    ∃ (scan : Scan opened) (scene' : Scene W), scan.key = key ∧
      (signatureOf digest key).outcome scene = (scan.verdict, scene') ∧
      scene.Consulted digest scan.questions scene' := by
  subst hopened
  obtain ⟨scan, scene', hkey, hfirst, hconsulted⟩ :=
    exists_scan_of_firstSignature digest key scene.manager.wallets scene
  refine ⟨scan, scene', hkey, ?_, hconsulted⟩
  unfold signatureOf
  rw [Act.outcome_bind, Act.outcome_get]
  dsimp only
  rw [Act.outcome_bind, hfirst]
  unfold Scan.answer Scan.verdict
  rw [hkey]
  rcases scan.stop with _ | ⟨_, error | signature⟩ <;> rfl

/-! ## All keys -/

/-- How scans settle a list of keys: either there is one scan for each key, and each has a
    signature; or the scans reach a key for which there is an error, and end there. -/
def Settles (scans : List (Scan opened)) (keys : List PublicKey) :
    Except Error (List Signature) → Prop
  | .ok signatures => scans.map Scan.key = keys ∧ scans.map Scan.verdict = signatures.map .ok
  | .error error => ∃ signed last rest, scans = signed ++ [last] ∧
      keys = signed.map Scan.key ++ last.key :: rest ∧
      (∀ scan ∈ signed, scan.verdict.isOk = true) ∧ last.verdict = .error error

omit [Backend W] in
/-- A scan with a signature comes before those of the other keys. -/
theorem Settles.cons {scan : Scan opened} {scans : List (Scan opened)} {keys : List PublicKey}
    {signature : Signature} {result : Except Error (List Signature)}
    (hscan : scan.verdict = .ok signature) (h : Settles scans keys result) :
    Settles (scan :: scans) (scan.key :: keys) (result.map (signature :: ·)) := by
  cases result with
  | ok signatures =>
    obtain ⟨hkeys, hverdicts⟩ := h
    refine ⟨congrArg (scan.key :: ·) hkeys, ?_⟩
    rw [List.map_cons, hscan, hverdicts, List.map_cons]
  | error error =>
    obtain ⟨signed, last, rest, rfl, rfl, hsigned, hlast⟩ := h
    refine ⟨scan :: signed, last, rest, rfl, rfl, ?_, hlast⟩
    rintro other (_ | ⟨_, hother⟩)
    · rw [hscan]
      rfl
    · exact hsigned other hother

/-- Several keys are signed with one after the other, up to the first error. -/
theorem exists_scans_of_mapM_signatureOf (hopened : unlocked scene.manager.wallets = opened)
    (digest : Digest) (keys : List PublicKey) :
    ∃ (scans : List (Scan opened)) (result : Except Error (List Signature)) (scene' : Scene W),
      (keys.mapM (signatureOf digest)).outcome scene = (result, scene') ∧
      Settles scans keys result ∧
      scene.Consulted digest (scans.flatMap Scan.questions) scene' := by
  induction keys generalizing scene with
  | nil => exact ⟨[], .ok [], scene, rfl, ⟨rfl, rfl⟩, .refl digest scene⟩
  | cons key keys ih =>
    obtain ⟨scan, scene₁, rfl, hfirst, hconsulted⟩ := exists_scan_of_signatureOf hopened digest key
    rw [List.mapM_cons, Act.outcome_bind, hfirst]
    cases hverdict : scan.verdict with
    | error error =>
      refine ⟨[scan], .error error, scene₁, rfl, ⟨[], scan, keys, rfl, rfl, by simp, hverdict⟩, ?_⟩
      simpa using hconsulted
    | ok signature =>
      have hopened₁ : unlocked scene₁.manager.wallets = opened := by
        rw [hconsulted.manager_eq, hopened]
      obtain ⟨scans, result, scene', hrest, hsettles, hconsulted'⟩ := ih hopened₁
      refine ⟨scan :: scans, result.map (signature :: ·), scene', ?_, hsettles.cons hverdict, ?_⟩
      · dsimp only
        rw [bind_pure_comp, Act.outcome_map, hrest]
      · exact hconsulted.trans hconsulted'

/-- Signing a transaction, whatever the wallets answer. After the look at the timeout, the keys are
    gone through in ascending order, and each is looked for in the unlocked wallets in registration
    order. They are asked to sign one digest, that of the chain's id and the body, and nothing else
    is asked to be signed. If every key has a signature, these are attached in the order of the
    keys, behind the signatures that were there; otherwise the answer is the error of the first key
    that has none, and the keys behind it are not looked for. -/
theorem signTransaction_scans [Suite] (scene : Scene W) (tx : SignedTransaction) (keys : KeySet)
    (chain : ChainId) :
    keys.toList.Pairwise PublicKey.Precedes ∧
    ∃ (scans : List (Scan (unlocked scene.checked.manager.wallets)))
      (result : Except Error (List Signature)) (scene' : Scene W),
      (signTransaction tx keys chain).outcome scene =
        (result.map fun signatures => ⟨tx.body, tx.signatures ++ signatures⟩, scene') ∧
      Settles scans keys.toList result ∧
      scene.checked.Consulted (Suite.sha256 (chain.digest.val ++ tx.body.encode))
        (scans.flatMap Scan.questions) scene' := by
  obtain ⟨scans, result, scene', hmapM, hsettles, hconsulted⟩ :=
    exists_scans_of_mapM_signatureOf (rfl : unlocked scene.checked.manager.wallets = _)
      (tx.signingDigest chain) keys.toList
  refine ⟨keys.pairwise_precedes, scans, result, scene', ?_, hsettles, ?_⟩
  · unfold signTransaction
    rw [outcome_checkTimeout_bind, bind_pure_comp, Act.outcome_map, hmapM]
  · rw [SignedTransaction.signingDigest_eq] at hconsulted
    exact hconsulted

end Custody.Manager
