import Custody.Proofs.Act
import Custody.Proofs.Envelope.Sealing
import Custody.Wallet.Soft

set_option autoImplicit false

/-! # What an operation on a soft wallet can do

For each operation a relation between its start and its end: every answer it can give, with the
wallet and the world that it leaves behind. What holds of all runs of an operation is read off its
relation, and the operation itself is opened here and nowhere else. -/

namespace Custody.SoftWallet

/-- How an operation ends: its answer, the wallet and the world. -/
abbrev End (α : Type) := Except Error α × SoftWallet × World

/-! ## The parts that operations are made of -/

@[simp] theorem outcome_current (wallet : SoftWallet) (world : World) :
    current.outcome (wallet, world) = (.ok wallet, wallet, world) := rfl

@[simp] theorem outcome_update (f : SoftWallet → SoftWallet) (wallet : SoftWallet) (world : World) :
    (update f).outcome (wallet, world) = (.ok (), f wallet, world) := rfl

@[simp] theorem outcome_onWorld {α : Type} (act : Act Error World α) (wallet : SoftWallet)
    (world : World) : (onWorld act).outcome (wallet, world) =
      ((act.outcome world).1, wallet, (act.outcome world).2) := rfl

@[simp] theorem outcome_saveEnvelope (envelope : Envelope) (wallet : SoftWallet) (world : World) :
    (saveEnvelope envelope).outcome (wallet, world) =
      (((envelope.save wallet.path).outcome world).1.mapError fun fault => .io (.save fault),
        wallet, ((envelope.save wallet.path).outcome world).2) := rfl

theorem envelope_eq {wallet : SoftWallet} {envelope : Envelope}
    (h : wallet.envelope? = some envelope) : wallet.envelope = .ok envelope := by
  rw [SoftWallet.envelope, h]

theorem session_eq {wallet : SoftWallet} {session : Session}
    (h : wallet.session? = some session) : wallet.session = .ok session := by
  rw [SoftWallet.session, h]

theorem session_eq_error {wallet : SoftWallet} (h : wallet.session? = none) :
    wallet.session = .error (.walletLocked wallet.path.shown) := by
  rw [SoftWallet.session, h]

/-- Locking a locked wallet changes nothing. -/
theorem lock_eq_self {wallet : SoftWallet} (h : wallet.session? = none) : wallet.lock = wallet := by
  obtain ⟨path, cost, envelope?, session?⟩ := wallet
  cases h
  rfl

/-- A wallet of which a session implies a sealed copy is locked, or has both. -/
theorem locked_or_open {wallet : SoftWallet}
    (hbound : wallet.envelope? = none → wallet.session? = none) :
    wallet.session? = none ∨ ∃ envelope session,
      wallet.envelope? = some envelope ∧ wallet.session? = some session := by
  cases hsession : wallet.session? with
  | none => exact .inl rfl
  | some session =>
    cases henvelope : wallet.envelope? with
    | none =>
      rw [hbound henvelope] at hsession
      exact absurd hsession (by simp)
    | some envelope => exact .inr ⟨envelope, session, rfl, rfl⟩

variable [Suite]

/-- Either a sealed copy of the keys is made, or the wallet's keys cannot be encrypted. -/
inductive Sealing (keys : KeyMap) (key : Block 32) (kdf : KdfHeader) (wallet : SoftWallet)
    (world : World) : End Envelope → Prop
  | failed {fault : EnvelopeFault} {world' : World} (hdrew : world.Drew world')
    (hcipher : ∃ nonce, Suite.encrypt key nonce (Envelope.plaintext keys.values) = none) :
    Sealing keys key kdf wallet world (.error (.crypto (.envelope fault)), wallet, world')
  | sealed {envelope : Envelope} {world' : World} (hseals : envelope.Seals keys key kdf)
    (hdrew : world.Drew world') : Sealing keys key kdf wallet world (.ok envelope, wallet, world')

theorem sealKeys_spec (keys : KeyMap) (key : Block 32) (kdf : KdfHeader) (wallet : SoftWallet)
    (world : World) :
    Sealing keys key kdf wallet world ((sealKeys keys key kdf).outcome (wallet, world)) := by
  unfold sealKeys
  rw [Act.outcome_bind, outcome_onWorld, World.outcome_drawing]
  rcases h : (Envelope.ofKeys keys.values key kdf).run world.entropy
    with ⟨fault | envelope, entropy⟩
  · exact .failed ⟨entropy, rfl⟩ (Envelope.exists_of_run_ofKeys h)
  · exact .sealed ⟨world.entropy, entropy, h⟩ ⟨entropy, rfl⟩

/-! ## Committing keys -/

/-- New keys for an open wallet: they are sealed under the key of the session and the header of the
    sealed copy, and adopted only after they have been saved. -/
inductive Commit (keys : KeyMap) (wallet : SoftWallet) (envelope : Envelope) (session : Session)
    (world : World) : End Unit → Prop
  | unsealed {fault : EnvelopeFault} {world' : World} (hdrew : world.Drew world')
    (hcipher : ∃ nonce, Suite.encrypt session.key nonce (Envelope.plaintext keys.values) = none) :
    Commit keys wallet envelope session world (.error (.crypto (.envelope fault)), wallet, world')
  | unsaved {envelope' : Envelope} {world₁ : World} {fault : EnvelopeFault} {world' : World}
    (hseals : envelope'.Seals keys session.key envelope.kdf) (hdrew : world.Drew world₁)
    (hsave : (envelope'.save wallet.path).outcome world₁ = (.error fault, world')) :
    Commit keys wallet envelope session world (.error (.io (.save fault)), wallet, world')
  | saved {envelope' : Envelope} {world₁ world' : World}
    (hseals : envelope'.Seals keys session.key envelope.kdf) (hdrew : world.Drew world₁)
    (hsave : (envelope'.save wallet.path).outcome world₁ = (.ok (), world')) :
    Commit keys wallet envelope session world
      (.ok (), { wallet with envelope? := some envelope', session? := some { session with keys } },
        world')

theorem commitKeys_spec {wallet : SoftWallet} {envelope : Envelope} {session : Session}
    (keys : KeyMap) (henvelope : wallet.envelope? = some envelope)
    (hsession : wallet.session? = some session) (world : World) :
    Commit keys wallet envelope session world ((commitKeys keys).outcome (wallet, world)) := by
  unfold commitKeys
  simp only [Act.outcome_bind, outcome_current, Act.outcome_liftM, envelope_eq henvelope,
    session_eq hsession]
  have hseal := sealKeys_spec keys session.key envelope.kdf wallet world
  generalize (sealKeys keys session.key envelope.kdf).outcome (wallet, world) = sealing at hseal ⊢
  cases hseal with
  | failed hdrew hcipher => exact .unsealed hdrew hcipher
  | @sealed envelope' world₁ hseals hdrew =>
    simp only [outcome_saveEnvelope]
    rcases hsave : (envelope'.save wallet.path).outcome world₁ with ⟨fault | _, world'⟩
    · exact .unsaved hseals hdrew hsave
    · exact .saved hseals hdrew hsave

/-! ## Changing the keys -/

/-- A new key for the wallet. -/
inductive Import (key : PrivateKey) (wallet : SoftWallet) (world : World) : End PublicKey → Prop
  | locked (hlocked : wallet.session? = none) :
    Import key wallet world (.error (.walletLocked wallet.path.shown), wallet, world)
  | known {session : Session} (hsession : wallet.session? = some session)
    (hknown : session.keys.contains key.publicKey = true) :
    Import key wallet world (.error (.keyAlreadyExists key.publicKey), wallet, world)
  | committed {envelope : Envelope} {session : Session} {result : Except Error Unit}
    {wallet' : SoftWallet} {world' : World} (henvelope : wallet.envelope? = some envelope)
    (hsession : wallet.session? = some session)
    (hnew : session.keys.contains key.publicKey = false)
    (hcommit : Commit (session.keys.insert key.publicKey key) wallet envelope session world
      (result, wallet', world')) :
    Import key wallet world (result.map fun _ => key.publicKey, wallet', world')

/-- A key of the wallet is taken away. -/
inductive Removal (key : PublicKey) (wallet : SoftWallet) (world : World) : End Unit → Prop
  | locked (hlocked : wallet.session? = none) :
    Removal key wallet world (.error (.walletLocked wallet.path.shown), wallet, world)
  | unknown {session : Session} (hsession : wallet.session? = some session)
    (hunknown : session.keys.contains key = false) :
    Removal key wallet world (.error (.keyNotFound key), wallet, world)
  | committed {envelope : Envelope} {session : Session} {done : End Unit}
    (henvelope : wallet.envelope? = some envelope) (hsession : wallet.session? = some session)
    (hknown : session.keys.contains key = true)
    (hcommit : Commit (session.keys.erase key) wallet envelope session world done) :
    Removal key wallet world done

/-- A fresh key for the wallet. -/
inductive Creation (keyType : KeyType) (wallet : SoftWallet) (world : World) : End PublicKey → Prop
  | noKeyPair {entropy : Entropy}
    (hkey : (PrivateKey.generate keyType).run world.entropy = (none, entropy)) :
    Creation keyType wallet world (.error (.crypto .noKeyPair), wallet, { world with entropy })
  | imported {key : PrivateKey} {entropy : Entropy} {done : End PublicKey}
    (hkey : (PrivateKey.generate keyType).run world.entropy = (some key, entropy))
    (himport : Import key wallet { world with entropy } done) : Creation keyType wallet world done

section Keys

variable {wallet : SoftWallet}

theorem importKey_spec (key : PrivateKey)
    (hbound : wallet.envelope? = none → wallet.session? = none) (world : World) :
    Import key wallet world ((importKey key).outcome (wallet, world)) := by
  unfold importKey
  rcases locked_or_open hbound with hlocked | ⟨envelope, session, henvelope, hsession⟩
  · simp only [Act.outcome_bind, outcome_current, Act.outcome_liftM, session_eq_error hlocked]
    exact .locked hlocked
  · simp only [Act.outcome_bind, outcome_current, Act.outcome_liftM, session_eq hsession,
      Act.outcome_ite, Act.outcome_throw]
    split
    · rename_i hknown
      exact .known hsession hknown
    · rename_i hnew
      have hcommit := commitKeys_spec (session.keys.insert key.publicKey key) henvelope hsession
        world
      rcases hdone : (commitKeys (session.keys.insert key.publicKey key)).outcome (wallet, world)
        with ⟨result, wallet', world'⟩
      rw [hdone] at hcommit
      have hend := Import.committed henvelope hsession (Bool.eq_false_iff.2 hnew) hcommit
      cases result <;> exact hend

theorem removeKey_spec (key : PublicKey)
    (hbound : wallet.envelope? = none → wallet.session? = none) (world : World) :
    Removal key wallet world ((removeKey key).outcome (wallet, world)) := by
  unfold removeKey
  rcases locked_or_open hbound with hlocked | ⟨envelope, session, henvelope, hsession⟩
  · simp only [Act.outcome_bind, outcome_current, Act.outcome_liftM, session_eq_error hlocked]
    exact .locked hlocked
  · simp only [Act.outcome_bind, outcome_current, Act.outcome_liftM, session_eq hsession,
      Act.outcome_ite, Act.outcome_throw]
    split
    · rename_i hunknown
      exact .unknown hsession (by simpa using hunknown)
    · rename_i hknown
      exact .committed henvelope hsession (by simpa using hknown)
        (commitKeys_spec (session.keys.erase key) henvelope hsession world)

theorem createKey_spec (keyType : KeyType)
    (hbound : wallet.envelope? = none → wallet.session? = none) (world : World) :
    Creation keyType wallet world ((createKey keyType).outcome (wallet, world)) := by
  unfold createKey
  rw [Act.outcome_bind, outcome_onWorld, World.outcome_drawing]
  rcases hkey : (PrivateKey.generate keyType).run world.entropy with ⟨_ | key, entropy⟩
  · exact .noKeyPair hkey
  · exact .imported hkey (importKey_spec key hbound { world with entropy })

end Keys

/-! ## Passwords -/

/-- The keys that a session holds; none without one. -/
def heldKeys (wallet : SoftWallet) : KeyMap := (wallet.session?.map (·.keys)).getD ∅

/-- A new password for the wallet, refused while there is a sealed copy that is not open. -/
inductive Rebinding (password : String) (wallet : SoftWallet) (world : World) : End Unit → Prop
  | refused (hsealed : wallet.isNew = false) (hlocked : wallet.isLocked = true) :
    Rebinding password wallet world (.error (.walletLocked wallet.path.shown), wallet, world)
  | underived {salt : Block 32} {fault : KdfFault} {world' : World}
    (hallowed : wallet.isNew = true ∨ wallet.isLocked = false) (hdrew : world.Drew world')
    (hkey : (⟨wallet.cost, salt⟩ : KdfHeader).deriveKey password = .error fault) :
    Rebinding password wallet world (.error (.crypto (.kdf fault)), wallet, world')
  | unsealed {salt key : Block 32} {fault : EnvelopeFault} {world' : World}
    (hallowed : wallet.isNew = true ∨ wallet.isLocked = false) (hdrew : world.Drew world')
    (hkey : (⟨wallet.cost, salt⟩ : KdfHeader).deriveKey password = .ok key)
    (hcipher : ∃ nonce,
      Suite.encrypt key nonce (Envelope.plaintext wallet.heldKeys.values) = none) :
    Rebinding password wallet world
      (.error (.crypto (.envelope fault)), { wallet with session? := none }, world')
  | rebound {salt key : Block 32} {envelope : Envelope} {world' : World}
    (hallowed : wallet.isNew = true ∨ wallet.isLocked = false) (hdrew : world.Drew world')
    (hkey : (⟨wallet.cost, salt⟩ : KdfHeader).deriveKey password = .ok key)
    (hseals : envelope.Seals wallet.heldKeys key ⟨wallet.cost, salt⟩) :
    Rebinding password wallet world
      (.ok (), { wallet with session? := none, envelope? := some envelope }, world')

/-- A password for the sealed copy. -/
inductive Unlocking (password : String) (wallet : SoftWallet) (world : World) : End Unit → Prop
  | unset (hnew : wallet.envelope? = none) :
    Unlocking password wallet world (.error (.noPasswordSet wallet.path), wallet, world)
  | underived {envelope : Envelope} {fault : KdfFault}
    (henvelope : wallet.envelope? = some envelope)
    (hkey : envelope.kdf.deriveKey password = .error fault) :
    Unlocking password wallet world (.error (.crypto (.kdf fault)), wallet, world)
  | refused {envelope : Envelope} {key : Block 32} {fault : EnvelopeFault}
    (henvelope : wallet.envelope? = some envelope)
    (hkey : envelope.kdf.deriveKey password = .ok key)
    (hopen : envelope.openKeys key = .error fault) :
    Unlocking password wallet world (.error .badPassword, wallet, world)
  | opened {envelope : Envelope} {key : Block 32} {keys : List PrivateKey}
    (henvelope : wallet.envelope? = some envelope)
    (hkey : envelope.kdf.deriveKey password = .ok key)
    (hopen : envelope.openKeys key = .ok keys) :
    Unlocking password wallet world
      (.ok (), { wallet with session? := some ⟨key, KeyMap.ofKeys keys⟩ }, world)

theorem setPassword_spec (password : String) (wallet : SoftWallet) (world : World) :
    Rebinding password wallet world ((setPassword password).outcome (wallet, world)) := by
  unfold setPassword
  simp only [Act.outcome_bind, outcome_current, Act.outcome_ite, Act.outcome_throw]
  split
  · rename_i hrefused
    simp only [Bool.and_eq_true, Bool.not_eq_true'] at hrefused
    exact .refused hrefused.1 hrefused.2
  · rename_i hallowed
    have hallowed : wallet.isNew = true ∨ wallet.isLocked = false := by
      cases hnew : wallet.isNew <;> cases hlocked : wallet.isLocked <;> simp_all
    simp only [outcome_onWorld, World.outcome_drawing, Act.outcome_liftM]
    generalize (Entropy.draw 32).run world.entropy = drawn
    obtain ⟨salt, entropy⟩ := drawn
    cases hkey : (⟨wallet.cost, salt⟩ : KdfHeader).deriveKey password with
    | error fault =>
      simp only [deriveKey, hkey]
      exact .underived hallowed ⟨entropy, rfl⟩ hkey
    | ok key =>
      simp only [deriveKey, hkey, Except.mapError, outcome_update]
      have hseal := sealKeys_spec wallet.heldKeys key ⟨wallet.cost, salt⟩
        { wallet with session? := none } { world with entropy }
      rw [heldKeys] at hseal
      generalize (sealKeys ((wallet.session?.map (·.keys)).getD ∅) key ⟨wallet.cost, salt⟩).outcome
        ({ wallet with session? := none }, { world with entropy }) = sealing at hseal ⊢
      cases hseal with
      | failed hdrew hcipher =>
        exact .unsealed hallowed (World.Drew.trans ⟨entropy, rfl⟩ hdrew) hkey hcipher
      | sealed hseals hdrew =>
        exact .rebound hallowed (World.Drew.trans ⟨entropy, rfl⟩ hdrew) hkey hseals

theorem unlock_spec (password : String) (wallet : SoftWallet) (world : World) :
    Unlocking password wallet world ((unlock password).outcome (wallet, world)) := by
  unfold unlock
  cases henvelope : wallet.envelope? with
  | none =>
    simp only [Act.outcome_bind, outcome_current, Act.outcome_liftM, SoftWallet.envelope, henvelope]
    exact .unset henvelope
  | some envelope =>
    simp only [Act.outcome_bind, outcome_current, Act.outcome_liftM, envelope_eq henvelope]
    cases hkey : envelope.kdf.deriveKey password with
    | error fault =>
      simp only [deriveKey, hkey]
      exact .underived henvelope hkey
    | ok key =>
      simp only [deriveKey, hkey, Except.mapError]
      cases hopen : envelope.openKeys key with
      | error fault => exact .refused henvelope hkey hopen
      | ok keys => exact .opened henvelope hkey hopen

/-- Unlocking leaves the sealed copy as it is. -/
theorem Unlocking.envelope?_eq {password : String} {wallet : SoftWallet} {world : World}
    {done : End Unit} (h : Unlocking password wallet world done) :
    done.2.1.envelope? = wallet.envelope? := by
  cases h <;> rfl

theorem Unlocking.world_eq {password : String} {wallet : SoftWallet} {world : World}
    {done : End Unit} (h : Unlocking password wallet world done) : done.2.2 = world := by
  cases h <;> rfl

/-- A password that does not open the wallet leaves it as it is. -/
theorem Unlocking.eq_of_error {password : String} {wallet : SoftWallet} {world : World}
    {done : End Unit} (h : Unlocking password wallet world done) {error : Error}
    (herror : done.1 = .error error) : done.2.1 = wallet := by
  cases h with
  | opened henvelope hkey hopen => exact absurd herror (by simp)
  | _ => rfl

/-! ## Files -/

/-- The wallet's file is read. -/
inductive Loading (wallet : SoftWallet) (world : World) : End Unit → Prop
  | failed {fault : EnvelopeFault} {world' : World}
    (hload : (Envelope.load wallet.path).outcome world = (.error fault, world')) :
    Loading wallet world (.error (.walletFileUnreadable wallet.path fault), wallet, world')
  | loaded {envelope : Envelope} {world' : World}
    (hload : (Envelope.load wallet.path).outcome world = (.ok envelope, world')) :
    Loading wallet world
      (.ok (), { wallet with session? := none, envelope? := some envelope }, world')

/-- The wallet's file is written. An open wallet is sealed anew, and keeps the new copy even if it
    cannot be saved. -/
inductive Saving (wallet : SoftWallet) (world : World) : End Unit → Prop
  | unset (hnew : wallet.envelope? = none) :
    Saving wallet world (.error (.noPasswordSet wallet.path), wallet, world)
  | unsealed {session : Session} {fault : EnvelopeFault} {world' : World}
    (hsession : wallet.session? = some session) (hdrew : world.Drew world')
    (hcipher : ∃ nonce,
      Suite.encrypt session.key nonce (Envelope.plaintext session.keys.values) = none) :
    Saving wallet world (.error (.crypto (.envelope fault)), wallet, world')
  | resealed {envelope envelope' : Envelope} {session : Session} {world₁ world' : World}
    {result : Except EnvelopeFault Unit} (henvelope : wallet.envelope? = some envelope)
    (hsession : wallet.session? = some session)
    (hseals : envelope'.Seals session.keys session.key envelope.kdf) (hdrew : world.Drew world₁)
    (hsave : (envelope'.save wallet.path).outcome world₁ = (result, world')) :
    Saving wallet world (result.mapError fun fault => .io (.save fault),
      { wallet with envelope? := some envelope' }, world')
  | copied {envelope : Envelope} {world' : World} {result : Except EnvelopeFault Unit}
    (henvelope : wallet.envelope? = some envelope) (hlocked : wallet.session? = none)
    (hsave : (envelope.save wallet.path).outcome world = (result, world')) :
    Saving wallet world (result.mapError fun fault => .io (.save fault), wallet, world')

omit [Suite] in
theorem load_spec (wallet : SoftWallet) (world : World) :
    Loading wallet world (load.outcome (wallet, world)) := by
  unfold load
  simp only [Act.outcome_bind, outcome_current, outcome_onWorld, Act.outcome_mapError]
  rcases hload : (Envelope.load wallet.path).outcome world with ⟨fault | envelope, world'⟩
  · exact .failed hload
  · exact .loaded hload

theorem save_spec {wallet : SoftWallet} (hbound : wallet.envelope? = none → wallet.session? = none)
    (world : World) : Saving wallet world (save.outcome (wallet, world)) := by
  unfold save
  rcases locked_or_open hbound with hlocked | ⟨envelope, session, henvelope, hsession⟩
  · cases henvelope : wallet.envelope? with
    | none =>
      simp only [Act.outcome_bind, outcome_current, hlocked, Act.outcome_liftM, SoftWallet.envelope,
        henvelope]
      exact .unset henvelope
    | some envelope =>
      simp only [Act.outcome_bind, outcome_current, hlocked, Act.outcome_liftM,
        envelope_eq henvelope, outcome_saveEnvelope]
      exact .copied henvelope hlocked rfl
  · simp only [Act.outcome_bind, outcome_current, hsession, Act.outcome_liftM,
      envelope_eq henvelope]
    have hseal := sealKeys_spec session.keys session.key envelope.kdf wallet world
    generalize (sealKeys session.keys session.key envelope.kdf).outcome (wallet, world) = sealing
      at hseal ⊢
    cases hseal with
    | failed hdrew hcipher => exact .unsealed hsession hdrew hcipher
    | @sealed envelope' world₁ hseals hdrew =>
      exact .resealed henvelope hsession hseals hdrew rfl

end Custody.SoftWallet
