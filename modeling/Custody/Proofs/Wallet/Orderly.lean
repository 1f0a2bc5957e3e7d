import Custody.Proofs.Wallet.Vault

set_option autoImplicit false

/-! # Soft wallets keep their keys in order

Whatever has been done to a soft wallet, each key that it holds lies under its own public half and
is one that can be made: `SoftWallet.Reachable.orderly`. Unlike the refinement of a vault, this asks
nothing of the cipher, as whatever a sealed copy may open to is a list of keys that can be made. -/

namespace Custody.SoftWallet

variable [Suite]

/-- A session has a sealed copy beside it, and its keys lie under their own public halves. -/
structure Orderly (wallet : SoftWallet) : Prop where
  isBound : wallet.envelope? = none → wallet.session? = none
  filed : ∀ session, wallet.session? = some session → session.keys.Filed

namespace Orderly

variable {wallet : SoftWallet} {world : World}

theorem of_locked (h : wallet.session? = none) : wallet.Orderly :=
  ⟨fun _ => h, fun _ hsession => absurd hsession (by simp [h])⟩

theorem filed_heldKeys (h : wallet.Orderly) : wallet.heldKeys.Filed := by
  unfold heldKeys
  cases hsession : wallet.session? with
  | none => exact KeyMap.Filed.empty
  | some session => exact h.filed session hsession

theorem of_open {envelope : Envelope} {session : Session}
    (henvelope : wallet.envelope? = some envelope) (hsession : wallet.session? = some session)
    (hfiled : session.keys.Filed) : wallet.Orderly := by
  refine ⟨fun hnew => absurd hnew (by simp [henvelope]), ?_⟩
  intro session' hsession'
  rw [hsession] at hsession'
  cases hsession'
  exact hfiled

theorem commit (h : wallet.Orderly) {envelope : Envelope} {session : Session} {keys : KeyMap}
    {done : End Unit} (hcommit : Commit keys wallet envelope session world done)
    (hkeys : keys.Filed) : done.2.1.Orderly := by
  cases hcommit with
  | saved hseals hdrew hsave => exact of_open rfl rfl hkeys
  | _ => exact h

theorem importKey (h : wallet.Orderly) {key : PrivateKey} (made : key.WellFormed)
    {done : End PublicKey} (hdone : Import key wallet world done) : done.2.1.Orderly := by
  cases hdone with
  | committed henvelope hsession hnew hcommit =>
    exact h.commit hcommit ((h.filed _ hsession).insert made)
  | _ => exact h

theorem removeKey (h : wallet.Orderly) {key : PublicKey} {done : End Unit}
    (hdone : Removal key wallet world done) : done.2.1.Orderly := by
  cases hdone with
  | committed henvelope hsession hknown hcommit =>
    exact h.commit hcommit ((h.filed _ hsession).erase key)
  | _ => exact h

theorem createKey (h : wallet.Orderly) {keyType : KeyType} {done : End PublicKey}
    (hdone : Creation keyType wallet world done) : done.2.1.Orderly := by
  cases hdone with
  | noKeyPair hkey => exact h
  | imported hkey himport => exact h.importKey (PrivateKey.wellFormed_of_generate hkey) himport

theorem setPassword (h : wallet.Orderly) {password : String} {done : End Unit}
    (hdone : Rebinding password wallet world done) : done.2.1.Orderly := by
  cases hdone with
  | unsealed hallowed hdrew hkey hcipher => exact of_locked rfl
  | rebound hallowed hdrew hkey hseals => exact of_locked rfl
  | _ => exact h

theorem unlock (h : wallet.Orderly) {password : String} {done : End Unit}
    (hdone : Unlocking password wallet world done) : done.2.1.Orderly := by
  cases hdone with
  | opened henvelope hkey hopen =>
    exact of_open henvelope rfl (KeyMap.filed_ofKeys (Envelope.wellFormed_of_openKeys hopen))
  | _ => exact h

theorem save (h : wallet.Orderly) {done : End Unit} (hdone : Saving wallet world done) :
    done.2.1.Orderly := by
  cases hdone with
  | resealed henvelope hsession hseals hdrew hsave =>
    exact of_open rfl hsession (h.filed _ hsession)
  | _ => exact h

/-- Every operation keeps the wallet in order. -/
theorem step (h : wallet.Orderly) (step : Step) (world : World) :
    (step.perform.outcome (wallet, world)).2.1.Orderly := by
  cases step with
  | setPassword password =>
    rw [Step.perform, Act.outcome_map]
    exact h.setPassword (setPassword_spec password wallet world)
  | checkPassword password =>
    rw [Step.perform]
    simp only [Act.outcome_bind, outcome_current, Act.outcome_liftM]
    cases wallet.checkPassword password <;> exact h
  | unlock password =>
    rw [Step.perform, Act.outcome_map]
    exact h.unlock (unlock_spec password wallet world)
  | lock => exact of_locked rfl
  | importKey key made =>
    rw [Step.perform, Act.outcome_map]
    exact h.importKey made (importKey_spec key h.isBound world)
  | removeKey key =>
    rw [Step.perform, Act.outcome_map]
    exact h.removeKey (removeKey_spec key h.isBound world)
  | createKey keyType =>
    rw [Step.perform, Act.outcome_map]
    exact h.createKey (createKey_spec keyType h.isBound world)
  | load =>
    rw [Step.perform, Act.outcome_map]
    have hload := load_spec wallet world
    generalize SoftWallet.load.outcome (wallet, world) = done at hload ⊢
    cases hload with
    | failed hload => exact h
    | loaded hload => exact of_locked rfl
  | save =>
    rw [Step.perform, Act.outcome_map]
    exact h.save (save_spec h.isBound world)

end Orderly

theorem Reachable.orderly {wallet : SoftWallet} (h : wallet.Reachable) : wallet.Orderly := by
  induction h with
  | new path cost => exact .of_locked rfl
  | step hreachable step world ih => exact ih.step step world

end Custody.SoftWallet
