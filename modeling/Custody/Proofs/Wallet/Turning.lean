import Custody.Proofs.Envelope.Files
import Custody.Proofs.Wallet.Orderly

set_option autoImplicit false

/-! # What becomes of a soft wallet

`SoftWallet.Turns` says everything that an operation can make of a wallet, whichever operation it is
and however it ends (`SoftWallet.Orderly.turns`). What is kept by each of these turns holds of every
wallet that can come about: its sealed copy has the version that can be read, and there is a
password for its session. -/

namespace Custody.SoftWallet

variable [Suite]

/-- What an operation can make of a wallet. -/
inductive Turns (wallet : SoftWallet) : SoftWallet → Prop
  | kept : Turns wallet wallet
  | locked : Turns wallet wallet.lock
  | rebound {password : String} {salt key : Block 32} {envelope : Envelope}
    (hkey : (⟨wallet.cost, salt⟩ : KdfHeader).deriveKey password = .ok key)
    (hseals : envelope.Seals wallet.heldKeys key ⟨wallet.cost, salt⟩) :
    Turns wallet { wallet with session? := none, envelope? := some envelope }
  | opened {password : String} {key : Block 32} {envelope : Envelope} {keys : List PrivateKey}
    (henvelope : wallet.envelope? = some envelope)
    (hkey : envelope.kdf.deriveKey password = .ok key)
    (hopen : envelope.openKeys key = .ok keys) :
    Turns wallet { wallet with session? := some ⟨key, KeyMap.ofKeys keys⟩ }
  | committed {envelope envelope' : Envelope} {session : Session} {keys : KeyMap}
    (henvelope : wallet.envelope? = some envelope) (hsession : wallet.session? = some session)
    (hseals : envelope'.Seals keys session.key envelope.kdf) :
    Turns wallet
      { wallet with envelope? := some envelope', session? := some { session with keys } }
  | resealed {envelope envelope' : Envelope} {session : Session}
    (henvelope : wallet.envelope? = some envelope) (hsession : wallet.session? = some session)
    (hseals : envelope'.Seals session.keys session.key envelope.kdf) :
    Turns wallet { wallet with envelope? := some envelope' }
  | loaded {envelope : Envelope} {world world' : World}
    (hload : (Envelope.load wallet.path).outcome world = (.ok envelope, world')) :
    Turns wallet { wallet with session? := none, envelope? := some envelope }

/-! ## Every operation -/

section Turns

variable {wallet : SoftWallet} {world : World}

theorem Commit.turns {keys : KeyMap} {envelope : Envelope} {session : Session} {done : End Unit}
    (henvelope : wallet.envelope? = some envelope) (hsession : wallet.session? = some session)
    (h : Commit keys wallet envelope session world done) : wallet.Turns done.2.1 := by
  cases h with
  | saved hseals hdrew hsave => exact .committed henvelope hsession hseals
  | _ => exact .kept

theorem Import.turns {key : PrivateKey} {done : End PublicKey}
    (h : Import key wallet world done) : wallet.Turns done.2.1 := by
  cases h with
  | committed henvelope hsession hnew hcommit => exact hcommit.turns henvelope hsession
  | _ => exact .kept

theorem Removal.turns {key : PublicKey} {done : End Unit} (h : Removal key wallet world done) :
    wallet.Turns done.2.1 := by
  cases h with
  | committed henvelope hsession hknown hcommit => exact hcommit.turns henvelope hsession
  | _ => exact .kept

theorem Creation.turns {keyType : KeyType} {done : End PublicKey}
    (h : Creation keyType wallet world done) : wallet.Turns done.2.1 := by
  cases h with
  | noKeyPair hkey => exact .kept
  | imported hkey himport => exact himport.turns

theorem Rebinding.turns {password : String} {done : End Unit}
    (h : Rebinding password wallet world done) : wallet.Turns done.2.1 := by
  cases h with
  | unsealed hallowed hdrew hkey hcipher => exact .locked
  | rebound hallowed hdrew hkey hseals => exact .rebound hkey hseals
  | _ => exact .kept

theorem Unlocking.turns {password : String} {done : End Unit}
    (h : Unlocking password wallet world done) : wallet.Turns done.2.1 := by
  cases h with
  | opened henvelope hkey hopen => exact .opened henvelope hkey hopen
  | _ => exact .kept

theorem Loading.turns {done : End Unit} (h : Loading wallet world done) :
    wallet.Turns done.2.1 := by
  cases h with
  | failed hload => exact .kept
  | loaded hload => exact .loaded hload

theorem Saving.turns {done : End Unit} (h : Saving wallet world done) :
    wallet.Turns done.2.1 := by
  cases h with
  | resealed henvelope hsession hseals hdrew hsave => exact .resealed henvelope hsession hseals
  | _ => exact .kept

/-- Whatever is done to a wallet, it is one of these turns. -/
theorem Orderly.turns (h : wallet.Orderly) (step : Step) (world : World) :
    wallet.Turns (step.perform.outcome (wallet, world)).2.1 := by
  cases step with
  | setPassword password =>
    rw [Step.perform, Act.outcome_map]
    exact (setPassword_spec password wallet world).turns
  | checkPassword password =>
    rw [Step.perform]
    simp only [Act.outcome_bind, outcome_current, Act.outcome_liftM]
    cases wallet.checkPassword password <;> exact .kept
  | unlock password =>
    rw [Step.perform, Act.outcome_map]
    exact (unlock_spec password wallet world).turns
  | lock => exact .locked
  | importKey key made =>
    rw [Step.perform, Act.outcome_map]
    exact (importKey_spec key h.isBound world).turns
  | removeKey key =>
    rw [Step.perform, Act.outcome_map]
    exact (removeKey_spec key h.isBound world).turns
  | createKey keyType =>
    rw [Step.perform, Act.outcome_map]
    exact (createKey_spec keyType h.isBound world).turns
  | load =>
    rw [Step.perform, Act.outcome_map]
    exact (load_spec wallet world).turns
  | save =>
    rw [Step.perform, Act.outcome_map]
    exact (save_spec h.isBound world).turns

/-- What holds of new wallets and is kept by every turn holds of all wallets that can come about. -/
theorem Reachable.of_turns {P : SoftWallet → Prop} (hnew : ∀ path cost, P (.new path cost))
    (hturns : ∀ wallet wallet' : SoftWallet, wallet.Turns wallet' → P wallet → P wallet')
    (h : wallet.Reachable) : P wallet := by
  induction h with
  | new path cost => exact hnew path cost
  | step hreachable step world ih =>
    exact hturns _ _ (hreachable.orderly.turns step world) ih

end Turns

/-! ## What every turn keeps -/

/-- The sealed copy has the version that can be read. -/
def IsCurrent (wallet : SoftWallet) : Prop :=
  ∀ envelope, wallet.envelope? = some envelope → envelope.version = Envelope.currentVersion

/-- There is a password for the session: with the header of the sealed copy it gives the session's
    key. -/
def IsKeyed (wallet : SoftWallet) : Prop :=
  ∀ session, wallet.session? = some session → ∃ envelope password,
    wallet.envelope? = some envelope ∧ envelope.kdf.deriveKey password = .ok session.key

section Kept

variable {wallet wallet' : SoftWallet}

theorem Turns.isCurrent (hturns : wallet.Turns wallet') (h : wallet.IsCurrent) :
    wallet'.IsCurrent := by
  cases hturns with
  | rebound hkey hseals => rintro _ ⟨⟩; exact hseals.version_eq
  | committed henvelope hsession hseals => rintro _ ⟨⟩; exact hseals.version_eq
  | resealed henvelope hsession hseals => rintro _ ⟨⟩; exact hseals.version_eq
  | loaded hload =>
    obtain ⟨-, -, -, -, hversion⟩ := (Envelope.load_spec hload).2 _ rfl
    rintro _ ⟨⟩
    exact hversion
  | _ => exact h

theorem Turns.isKeyed (hturns : wallet.Turns wallet') (h : wallet.IsKeyed) : wallet'.IsKeyed := by
  cases hturns with
  | kept => exact h
  | opened henvelope hkey hopen => rintro _ ⟨⟩; exact ⟨_, _, henvelope, hkey⟩
  | committed henvelope hsession hseals =>
    -- the key of the session and the header of the sealed copy are the same as before
    obtain ⟨envelope, password, henvelope', hkey⟩ := h _ hsession
    rw [henvelope] at henvelope'
    cases henvelope'
    rintro _ ⟨⟩
    exact ⟨_, password, rfl, hseals.kdf_eq ▸ hkey⟩
  | resealed henvelope hsession hseals =>
    obtain ⟨envelope, password, henvelope', hkey⟩ := h _ hsession
    rw [henvelope] at henvelope'
    cases henvelope'
    intro session' hsession'
    rw [hsession] at hsession'
    cases hsession'
    exact ⟨_, password, rfl, hseals.kdf_eq ▸ hkey⟩
  | _ => rintro _ ⟨⟩

theorem Reachable.isCurrent (h : wallet.Reachable) : wallet.IsCurrent :=
  h.of_turns (fun _ _ => by rintro _ ⟨⟩) fun _ _ => Turns.isCurrent

theorem Reachable.isKeyed (h : wallet.Reachable) : wallet.IsKeyed :=
  h.of_turns (fun _ _ => by rintro _ ⟨⟩) fun _ _ => Turns.isKeyed

/-- The wallet is open, and the password gives the key of its session. -/
def Accepts (wallet : SoftWallet) (password : String) (session : Session) : Prop :=
  wallet.session? = some session ∧ ∃ envelope, wallet.envelope? = some envelope ∧
    envelope.kdf.deriveKey password = .ok session.key

/-- The password that is asked for is one that gives the key of the session. -/
theorem checkPassword_eq_ok_iff {password : String} : wallet.checkPassword password = .ok () ↔
    ∃ session, wallet.Accepts password session := by
  constructor
  · intro h
    unfold checkPassword at h
    cases hsession : wallet.session? with
    | none => exact absurd h (by simp [session_eq_error hsession, bind, Except.bind])
    | some session =>
      cases henvelope : wallet.envelope? with
      | none =>
        exact absurd h (by simp [session_eq hsession, SoftWallet.envelope, henvelope, bind,
          Except.bind])
      | some envelope =>
        simp only [session_eq hsession, envelope_eq henvelope, deriveKey, bind, Except.bind] at h
        cases hkey : envelope.kdf.deriveKey password with
        | error fault => exact absurd h (by simp [hkey, Except.mapError])
        | ok key =>
          simp only [hkey, Except.mapError] at h
          split at h
          · rename_i heq
            exact ⟨session, hsession, envelope, henvelope, heq ▸ hkey⟩
          · exact absurd h (by simp)
  · rintro ⟨session, hsession, envelope, henvelope, hkey⟩
    unfold checkPassword
    simp only [session_eq hsession, envelope_eq henvelope, deriveKey, bind, Except.bind, hkey,
      Except.mapError, if_true]
    rfl

end Kept

end Custody.SoftWallet
