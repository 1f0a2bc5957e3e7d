import Custody.Proofs.Suite.Plain
import Custody.Proofs.Wallet.Steps

set_option autoImplicit false

/-! # A soft wallet is a vault

What a soft wallet is to its user: a flag, the header and the key that it is bound to, and a finite
map of keys (`Vault`). `Vault.Allows` says what each operation may answer and what becomes of the
vault and of the world; a change of the keys fails only where the vault cannot be stored
(`Vault.Storing`). A wallet stands for a vault when its sealed copy holds the vault's keys and its
session, if it is open, is the vault's (`SoftWallet.Refines`); `SoftWallet.Refines.step` shows that
every operation of the wallet, the failing ones included, is one that the vault allows. -/

namespace Custody

section

variable [Suite]

/-! ## Operations and runs -/

namespace SoftWallet

/-- An operation with its arguments. Only a key that can be made is ever imported. -/
inductive Step
  | setPassword (password : String)
  | checkPassword (password : String)
  | unlock (password : String)
  | lock
  | importKey (key : PrivateKey) (made : key.WellFormed)
  | removeKey (key : PublicKey)
  | createKey (keyType : KeyType)
  | load
  | save

/-- Carry an operation out. A key that comes to the wallet is the answer. -/
def Step.perform : Step → Operation (Option PublicKey)
  | .setPassword password => (fun _ => none) <$> SoftWallet.setPassword password
  | .checkPassword password => do
    (← current).checkPassword password
    return none
  | .unlock password => (fun _ => none) <$> SoftWallet.unlock password
  | .lock => (fun _ => none) <$> update SoftWallet.lock
  | .importKey key _ => some <$> SoftWallet.importKey key
  | .removeKey key => (fun _ => none) <$> SoftWallet.removeKey key
  | .createKey keyType => some <$> SoftWallet.createKey keyType
  | .load => (fun _ => none) <$> SoftWallet.load
  | .save => (fun _ => none) <$> SoftWallet.save

/-- A wallet that some operations lead to from a new one, each in a world of its own. -/
inductive Reachable : SoftWallet → Prop
  | new (path : Path) (cost : KdfCost) : Reachable (SoftWallet.new path cost)
  | step {wallet : SoftWallet} (hreachable : Reachable wallet) (step : Step) (world : World) :
    Reachable (step.perform.outcome (wallet, world)).2.1

end SoftWallet

/-! ## Vaults -/

/-- The envelope holds a map of keys under a header and a key. -/
def Envelope.Holds (envelope : Envelope) (header : KdfHeader) (key : Block 32) (keys : KeyMap) :
    Prop :=
  envelope.kdf = header ∧ ∃ opened, envelope.openKeys key = .ok opened ∧ KeyMap.ofKeys opened = keys

/-- What a wallet is to its user. -/
inductive Vault
  /-- No password was ever set. -/
  | empty
  /-- A sealed copy was taken from a file, and nothing has opened it yet. -/
  | foreign (envelope : Envelope)
  | bound (isLocked : Bool) (header : KdfHeader) (key : Block 32) (keys : KeyMap)

namespace Vault

def isLocked : Vault → Bool
  | .bound isLocked _ _ _ => isLocked
  | _ => true

/-- Closing a vault changes the flag and nothing else. -/
def lock : Vault → Vault
  | .bound _ header key keys => .bound true header key keys
  | vault => vault

/-- Whether a new password may be set: the vault is empty or open. -/
def isRebindable : Vault → Bool
  | .empty => true
  | .foreign _ => false
  | .bound isLocked _ _ _ => !isLocked

def header? : Vault → Option KdfHeader
  | .empty => none
  | .foreign envelope => some envelope.kdf
  | .bound _ header _ _ => some header

def key? : Vault → Option (Block 32)
  | .bound _ _ key _ => some key
  | _ => none

def keys : Vault → KeyMap
  | .bound _ _ _ keys => keys
  | _ => ∅

/-- The envelope is a sealed copy of the vault. -/
def CopiedBy : Vault → Envelope → Prop
  | .empty, _ => False
  | .foreign envelope, copy => copy = envelope
  | .bound _ header key keys, copy => copy.Holds header key keys

/-! ## What is allowed -/

/-- How the file of a vault is written: the keys of the open vault cannot be encrypted, or a sealed copy
    is saved, as far as the disk lets it. -/
inductive Storing (path : Path) (world : World) : Vault → Except Error Unit → World → Prop
  | unsealed {header : KdfHeader} {key : Block 32} {keys : KeyMap} {fault : EnvelopeFault}
    {world' : World} (hdrew : world.Drew world')
    (hcipher : ∃ nonce, Suite.encrypt key nonce (Envelope.plaintext keys.values) = none) :
    Storing path world (.bound false header key keys) (.error (.crypto (.envelope fault))) world'
  | saved {vault : Vault} {envelope : Envelope} {world₁ world' : World}
    {result : Except EnvelopeFault Unit} (hcopy : vault.CopiedBy envelope)
    (hdrew : world.Drew world₁) (hsave : (envelope.save path).outcome world₁ = (result, world')) :
    Storing path world vault (result.mapError fun fault => .io (.save fault)) world'

/-- What an operation on a vault may answer, and what becomes of the vault and of the world. -/
inductive Allows (path : Path) (cost : KdfCost) : World → Vault → SoftWallet.Step →
    Except Error (Option PublicKey) → Vault → World → Prop
  | setPassword_refused {world : World} {vault : Vault} {password : String}
    (hsealed : vault.isRebindable = false) :
    Allows path cost world vault (.setPassword password) (.error (.walletLocked path.shown)) vault
      world
  | setPassword_underived {world world' : World} {vault : Vault} {password : String}
    {salt : Block 32} {fault : KdfFault} (hrebindable : vault.isRebindable = true)
    (hdrew : world.Drew world')
    (hkey : (⟨cost, salt⟩ : KdfHeader).deriveKey password = .error fault) :
    Allows path cost world vault (.setPassword password) (.error (.crypto (.kdf fault))) vault
      world'
  /-- Keys that cannot be encrypted are locked up as they were. -/
  | setPassword_unsealed {world world' : World} {vault : Vault} {password : String}
    {salt key : Block 32} {fault : EnvelopeFault} (hrebindable : vault.isRebindable = true)
    (hdrew : world.Drew world') (hkey : (⟨cost, salt⟩ : KdfHeader).deriveKey password = .ok key)
    (hcipher : ∃ nonce, Suite.encrypt key nonce (Envelope.plaintext vault.keys.values) = none) :
    Allows path cost world vault (.setPassword password) (.error (.crypto (.envelope fault)))
      vault.lock world'
  | setPassword_done {world world' : World} {vault : Vault} {password : String}
    {salt key : Block 32} (hrebindable : vault.isRebindable = true) (hdrew : world.Drew world')
    (hkey : (⟨cost, salt⟩ : KdfHeader).deriveKey password = .ok key) :
    Allows path cost world vault (.setPassword password) (.ok none)
      (.bound true ⟨cost, salt⟩ key vault.keys) world'
  | checkPassword_locked {world : World} {vault : Vault} {password : String}
    (hlocked : vault.isLocked = true) :
    Allows path cost world vault (.checkPassword password) (.error (.walletLocked path.shown)) vault
      world
  | checkPassword_underived {world : World} {header : KdfHeader} {key : Block 32} {keys : KeyMap}
    {password : String} {fault : KdfFault} (hkey : header.deriveKey password = .error fault) :
    Allows path cost world (.bound false header key keys) (.checkPassword password)
      (.error (.crypto (.kdf fault))) (.bound false header key keys) world
  | checkPassword_right {world : World} {header : KdfHeader} {key : Block 32} {keys : KeyMap}
    {password : String} (hkey : header.deriveKey password = .ok key) :
    Allows path cost world (.bound false header key keys) (.checkPassword password) (.ok none)
      (.bound false header key keys) world
  | checkPassword_wrong {world : World} {header : KdfHeader} {key other : Block 32} {keys : KeyMap}
    {password : String} (hkey : header.deriveKey password = .ok other) (hother : other ≠ key) :
    Allows path cost world (.bound false header key keys) (.checkPassword password)
      (.error .badPassword) (.bound false header key keys) world
  | unlock_unset {world : World} {password : String} :
    Allows path cost world .empty (.unlock password) (.error (.noPasswordSet path)) .empty world
  | unlock_underived {world : World} {vault : Vault} {header : KdfHeader} {password : String}
    {fault : KdfFault} (hheader : vault.header? = some header)
    (hkey : header.deriveKey password = .error fault) :
    Allows path cost world vault (.unlock password) (.error (.crypto (.kdf fault))) vault world
  | unlock_bound {world : World} {isLocked : Bool} {header : KdfHeader} {key : Block 32}
    {keys : KeyMap} {password : String} (hkey : header.deriveKey password = .ok key) :
    Allows path cost world (.bound isLocked header key keys) (.unlock password) (.ok none)
      (.bound false header key keys) world
  /-- Of a key that the vault is not known to be bound to, nothing is promised: it opens the sealed
      copy, and the vault is bound to it from then on, or it does not. -/
  | unlock_other {world : World} {vault : Vault} {header : KdfHeader} {other : Block 32}
    {keys : KeyMap} {password : String} (hheader : vault.header? = some header)
    (hkey : header.deriveKey password = .ok other) (hother : vault.key? ≠ some other) :
    Allows path cost world vault (.unlock password) (.ok none) (.bound false header other keys)
      world
  | unlock_wrong {world : World} {vault : Vault} {header : KdfHeader} {other : Block 32}
    {password : String} (hheader : vault.header? = some header)
    (hkey : header.deriveKey password = .ok other) (hother : vault.key? ≠ some other) :
    Allows path cost world vault (.unlock password) (.error .badPassword) vault world
  | lock {world : World} {vault : Vault} :
    Allows path cost world vault .lock (.ok none) vault.lock world
  | importKey_locked {world : World} {vault : Vault} {key : PrivateKey} {made : key.WellFormed}
    (hlocked : vault.isLocked = true) :
    Allows path cost world vault (.importKey key made) (.error (.walletLocked path.shown)) vault
      world
  | importKey_known {world : World} {header : KdfHeader} {vaultKey : Block 32} {keys : KeyMap}
    {key : PrivateKey} {made : key.WellFormed} (hknown : keys.contains key.publicKey = true) :
    Allows path cost world (.bound false header vaultKey keys) (.importKey key made)
      (.error (.keyAlreadyExists key.publicKey)) (.bound false header vaultKey keys) world
  | importKey_failed {world world' : World} {header : KdfHeader} {vaultKey : Block 32}
    {keys : KeyMap} {key : PrivateKey} {made : key.WellFormed} {error : Error}
    (hnew : keys.contains key.publicKey = false)
    (hstoring : Storing path world
      (.bound false header vaultKey (keys.insert key.publicKey key)) (.error error) world') :
    Allows path cost world (.bound false header vaultKey keys) (.importKey key made) (.error error)
      (.bound false header vaultKey keys) world'
  | importKey_done {world world' : World} {header : KdfHeader} {vaultKey : Block 32}
    {keys : KeyMap} {key : PrivateKey} {made : key.WellFormed}
    (hnew : keys.contains key.publicKey = false)
    (hstoring : Storing path world
      (.bound false header vaultKey (keys.insert key.publicKey key)) (.ok ()) world') :
    Allows path cost world (.bound false header vaultKey keys) (.importKey key made)
      (.ok (some key.publicKey)) (.bound false header vaultKey (keys.insert key.publicKey key))
      world'
  | removeKey_locked {world : World} {vault : Vault} {key : PublicKey}
    (hlocked : vault.isLocked = true) :
    Allows path cost world vault (.removeKey key) (.error (.walletLocked path.shown)) vault world
  | removeKey_unknown {world : World} {header : KdfHeader} {vaultKey : Block 32} {keys : KeyMap}
    {key : PublicKey} (hunknown : keys.contains key = false) :
    Allows path cost world (.bound false header vaultKey keys) (.removeKey key)
      (.error (.keyNotFound key)) (.bound false header vaultKey keys) world
  | removeKey_failed {world world' : World} {header : KdfHeader} {vaultKey : Block 32}
    {keys : KeyMap} {key : PublicKey} {error : Error} (hknown : keys.contains key = true)
    (hstoring : Storing path world (.bound false header vaultKey (keys.erase key)) (.error error)
      world') :
    Allows path cost world (.bound false header vaultKey keys) (.removeKey key) (.error error)
      (.bound false header vaultKey keys) world'
  | removeKey_done {world world' : World} {header : KdfHeader} {vaultKey : Block 32}
    {keys : KeyMap} {key : PublicKey} (hknown : keys.contains key = true)
    (hstoring : Storing path world (.bound false header vaultKey (keys.erase key)) (.ok ())
      world') :
    Allows path cost world (.bound false header vaultKey keys) (.removeKey key) (.ok none)
      (.bound false header vaultKey (keys.erase key)) world'
  /-- Only a Falcon-512 key pair may not come about. -/
  | createKey_noKeyPair {world : World} {vault : Vault} {entropy : Entropy}
    (hkey : (PrivateKey.generate .falcon512).run world.entropy = (none, entropy)) :
    Allows path cost world vault (.createKey .falcon512) (.error (.crypto .noKeyPair)) vault
      { world with entropy }
  /-- Creating a key is importing a fresh one. -/
  | createKey_imported {world world' : World} {vault vault' : Vault} {keyType : KeyType}
    {key : PrivateKey} {made : key.WellFormed} {entropy : Entropy}
    {result : Except Error (Option PublicKey)}
    (hkey : (PrivateKey.generate keyType).run world.entropy = (some key, entropy))
    (himport : Allows path cost { world with entropy } vault (.importKey key made) result vault'
      world') :
    Allows path cost world vault (.createKey keyType) result vault' world'
  | load_failed {world world' : World} {vault : Vault} {fault : EnvelopeFault}
    (hload : (Envelope.load path).outcome world = (.error fault, world')) :
    Allows path cost world vault .load (.error (.walletFileUnreadable path fault)) vault world'
  | load_done {world world' : World} {vault : Vault} {envelope : Envelope}
    (hload : (Envelope.load path).outcome world = (.ok envelope, world')) :
    Allows path cost world vault .load (.ok none) (.foreign envelope) world'
  | save_unset {world : World} :
    Allows path cost world .empty .save (.error (.noPasswordSet path)) .empty world
  | save_stored {world world' : World} {vault : Vault} {result : Except Error Unit}
    (hstoring : Storing path world vault result world') :
    Allows path cost world vault .save (result.map fun _ => none) vault world'

section Allows

variable {path : Path} {cost : KdfCost} {world world' : World} {vault vault' : Vault}

omit [Suite] in
theorem lock_ne_empty (hset : vault ≠ .empty) : vault.lock ≠ .empty := by
  cases vault with
  | empty => exact absurd rfl hset
  | foreign envelope => simp [lock]
  | bound isLocked header key keys => simp [lock]

/-- What keeps a vault from being stored is the encryption or the disk. -/
theorem Storing.ne_noPasswordSet {result : Except Error Unit}
    (h : Storing path world vault result world') (path' : Path) :
    result ≠ .error (.noPasswordSet path') := by
  cases h with
  | unsealed hdrew hcipher => simp
  | @saved _ _ _ _ result hcopy hdrew hsave => cases result <;> simp [Except.mapError]

/-- A vault that was ever bound or loaded has a password, and never loses it. -/
theorem Allows.set_of_set {step : SoftWallet.Step} {result : Except Error (Option PublicKey)}
    (h : Allows path cost world vault step result vault' world') (hset : vault ≠ .empty) :
    (∀ path', result ≠ .error (.noPasswordSet path')) ∧ vault' ≠ .empty := by
  induction h with
  | setPassword_unsealed hrebindable => exact ⟨by simp, lock_ne_empty hset⟩
  | lock => exact ⟨by simp, lock_ne_empty hset⟩
  | unlock_unset => exact absurd rfl hset
  | save_unset => exact absurd rfl hset
  | importKey_failed hnew hstoring =>
    have hne := hstoring.ne_noPasswordSet
    exact ⟨fun path' => by simpa using hne path', hset⟩
  | removeKey_failed hknown hstoring =>
    have hne := hstoring.ne_noPasswordSet
    exact ⟨fun path' => by simpa using hne path', hset⟩
  | @save_stored _ _ _ result hstoring =>
    have hne := hstoring.ne_noPasswordSet
    refine ⟨fun path' => ?_, hset⟩
    cases result with
    | error error => simpa [Except.map] using hne path'
    | ok _ => simp [Except.map]
  | createKey_imported hkey himport ih => exact ih hset
  | _ => exact ⟨by simp, by simp_all⟩

end Allows

end Vault

/-! ## Standing for a vault -/

namespace Envelope

variable {envelope : Envelope} {header : KdfHeader} {key : Block 32} {keys : KeyMap}

theorem Holds.filed (h : envelope.Holds header key keys) : keys.Filed := by
  obtain ⟨-, opened, hopen, rfl⟩ := h
  exact KeyMap.filed_ofKeys (wellFormed_of_openKeys hopen)

theorem Seals.holds [Suite.LawfulCipher] (h : envelope.Seals keys key header)
    (hkeys : keys.Filed) : envelope.Holds header key keys :=
  ⟨h.kdf_eq, keys.values, h.openKeys_eq hkeys, hkeys.ofKeys_values⟩

end Envelope

namespace SoftWallet

/-- The wallet stands for the vault. -/
def Refines (wallet : SoftWallet) : Vault → Prop
  | .empty => wallet.envelope? = none ∧ wallet.session? = none
  | .foreign envelope => wallet.envelope? = some envelope ∧ wallet.session? = none
  | .bound isLocked header key keys =>
    (∃ envelope, wallet.envelope? = some envelope ∧ envelope.Holds header key keys) ∧
      wallet.session? = if isLocked then none else some ⟨key, keys⟩

/-- What ties an open session to the sealed copy: the sealed copy is there, the session's key opens
    it to the session's keys, and every key lies under its own public half. -/
def Coupled (wallet : SoftWallet) : Prop :=
  ∀ session, wallet.session? = some session → ∃ envelope opened,
    wallet.envelope? = some envelope ∧ envelope.openKeys session.key = .ok opened ∧
      KeyMap.ofKeys opened = session.keys ∧ session.keys.Filed

section Refines

variable {wallet : SoftWallet} {vault : Vault}

/-- An open wallet stands for an open vault. -/
theorem Refines.eq_bound (h : wallet.Refines vault) {session : Session}
    (hsession : wallet.session? = some session) : ∃ envelope, wallet.envelope? = some envelope ∧
      vault = .bound false envelope.kdf session.key session.keys ∧
      envelope.Holds envelope.kdf session.key session.keys := by
  cases vault with
  | empty => exact absurd hsession (by simp [h.2])
  | foreign envelope => exact absurd hsession (by simp [h.2])
  | bound isLocked header key keys =>
    obtain ⟨⟨envelope, henvelope, hholds⟩, hstate⟩ := h
    cases isLocked with
    | true => exact absurd hsession (by simp [hstate])
    | false =>
      rw [hstate] at hsession
      cases hsession
      have hheader := hholds.1
      subst hheader
      exact ⟨envelope, henvelope, rfl, hholds⟩

theorem Refines.eq_bound_of_open (h : wallet.Refines vault) {envelope : Envelope}
    {session : Session} (henvelope : wallet.envelope? = some envelope)
    (hsession : wallet.session? = some session) :
    vault = .bound false envelope.kdf session.key session.keys ∧
      envelope.Holds envelope.kdf session.key session.keys := by
  obtain ⟨envelope', henvelope', heq, hholds⟩ := h.eq_bound hsession
  rw [henvelope'] at henvelope
  cases henvelope
  exact ⟨heq, hholds⟩

theorem Refines.coupled (h : wallet.Refines vault) : wallet.Coupled := by
  intro session hsession
  obtain ⟨envelope, henvelope, -, hholds⟩ := h.eq_bound hsession
  obtain ⟨opened, hopen, hkeys⟩ := hholds.2
  exact ⟨envelope, opened, henvelope, hopen, hkeys, hholds.filed⟩

theorem Coupled.isBound (h : wallet.Coupled) (hnew : wallet.envelope? = none) :
    wallet.session? = none := by
  cases hsession : wallet.session? with
  | none => rfl
  | some session =>
    obtain ⟨envelope, -, henvelope, -⟩ := h session hsession
    exact absurd henvelope (by simp [hnew])

/-- The flag of the vault is the wallet's. -/
theorem Refines.session_isNone (h : wallet.Refines vault) :
    wallet.session?.isNone = vault.isLocked := by
  cases vault with
  | empty => simp [h.2, Vault.isLocked]
  | foreign envelope => simp [h.2, Vault.isLocked]
  | bound isLocked header key keys => cases isLocked <;> simp [h.2, Vault.isLocked]

theorem Refines.isRebindable_eq (h : wallet.Refines vault) :
    vault.isRebindable = (wallet.isNew || !wallet.isLocked) := by
  unfold isNew isLocked
  cases vault with
  | empty => simp [h.1, Vault.isRebindable]
  | foreign envelope => simp [h.1, h.2, Vault.isRebindable]
  | bound isLocked header key keys =>
    obtain ⟨⟨envelope, henvelope, -⟩, hstate⟩ := h
    cases isLocked <;> simp [henvelope, hstate, Vault.isRebindable]

theorem Refines.heldKeys_eq (h : wallet.Refines vault)
    (hrebindable : vault.isRebindable = true) : wallet.heldKeys = vault.keys := by
  unfold heldKeys
  cases vault with
  | empty => simp [h.2, Vault.keys]
  | foreign envelope => exact absurd hrebindable (by simp [Vault.isRebindable])
  | bound isLocked header key keys =>
    cases isLocked with
    | true => exact absurd hrebindable (by simp [Vault.isRebindable])
    | false => simp [h.2, Vault.keys]

/-- The sealed copy of the wallet is one of the vault. -/
theorem Refines.copiedBy (h : wallet.Refines vault) {envelope : Envelope}
    (henvelope : wallet.envelope? = some envelope) : vault.CopiedBy envelope := by
  cases vault with
  | empty => exact absurd henvelope (by simp [h.1])
  | foreign envelope' => exact Option.some.inj (henvelope.symm.trans h.1)
  | bound isLocked header key keys =>
    obtain ⟨⟨envelope', henvelope', hholds⟩, -⟩ := h
    rw [henvelope'] at henvelope
    cases henvelope
    exact hholds

theorem Refines.filed_keys (h : wallet.Refines vault) : vault.keys.Filed := by
  cases vault with
  | empty => exact KeyMap.Filed.empty
  | foreign envelope => exact KeyMap.Filed.empty
  | bound isLocked header key keys =>
    obtain ⟨⟨envelope, -, hholds⟩, -⟩ := h
    exact hholds.filed

/-- Closing the session closes the vault. -/
theorem Refines.lock (h : wallet.Refines vault) :
    ({ wallet with session? := none } : SoftWallet).Refines vault.lock := by
  cases vault with
  | empty => exact ⟨h.1, rfl⟩
  | foreign envelope => exact ⟨h.1, rfl⟩
  | bound isLocked header key keys => exact ⟨h.1, rfl⟩

end Refines

/-! ## Every operation is allowed -/

/-- A wallet of a vault may end an operation so in a world. -/
def Permits (wallet : SoftWallet) (vault : Vault) (step : Step) (world : World)
    (done : End (Option PublicKey)) : Prop :=
  ∃ vault', vault.Allows wallet.path wallet.cost world step done.1 vault' done.2.2 ∧
    done.2.1.Refines vault'

section Permits

variable {wallet : SoftWallet} {vault : Vault} {world : World}

theorem Refines.permits_setPassword [Suite.LawfulCipher] (h : wallet.Refines vault)
    {password : String} {done : End Unit} (hdone : Rebinding password wallet world done) :
    wallet.Permits vault (.setPassword password) world (done.1.map fun _ => none, done.2) := by
  have hrebindable : wallet.isNew = true ∨ wallet.isLocked = false → vault.isRebindable = true := by
    intro hallowed
    rw [h.isRebindable_eq]
    rcases hallowed with hnew | hopen
    · simp [hnew]
    · simp [hopen]
  cases hdone with
  | refused hsealed hlocked =>
    refine ⟨vault, .setPassword_refused ?_, h⟩
    simp [h.isRebindable_eq, hsealed, hlocked]
  | underived hallowed hdrew hkey =>
    exact ⟨vault, .setPassword_underived (hrebindable hallowed) hdrew hkey, h⟩
  | unsealed hallowed hdrew hkey hcipher =>
    have hallowed' := hrebindable hallowed
    rw [h.heldKeys_eq hallowed'] at hcipher
    exact ⟨vault.lock, .setPassword_unsealed hallowed' hdrew hkey hcipher, h.lock⟩
  | @rebound salt key envelope _ hallowed hdrew hkey hseals =>
    have hallowed' := hrebindable hallowed
    rw [h.heldKeys_eq hallowed'] at hseals
    refine ⟨_, .setPassword_done hallowed' hdrew hkey, ?_, rfl⟩
    exact ⟨envelope, rfl, hseals.holds h.filed_keys⟩

theorem Refines.permits_checkPassword (h : wallet.Refines vault) (password : String)
    (world : World) : wallet.Permits vault (.checkPassword password) world
      ((Step.checkPassword password).perform.outcome (wallet, world)) := by
  have hperform : (Step.checkPassword password).perform.outcome (wallet, world) =
      ((wallet.checkPassword password).map fun _ => none, wallet, world) := by
    unfold Step.perform
    simp only [Act.outcome_bind, outcome_current, Act.outcome_liftM]
    cases wallet.checkPassword password <;> rfl
  rw [hperform]
  refine ⟨vault, ?_, h⟩
  unfold checkPassword
  cases hsession : wallet.session? with
  | none =>
    rw [session_eq_error hsession]
    exact .checkPassword_locked (by rw [← h.session_isNone, hsession]; rfl)
  | some session =>
    obtain ⟨envelope, henvelope, rfl, -⟩ := h.eq_bound hsession
    simp only [session_eq hsession, envelope_eq henvelope, deriveKey, bind, Except.bind]
    cases hkey : envelope.kdf.deriveKey password with
    | error fault => exact .checkPassword_underived hkey
    | ok key =>
      simp only [Except.mapError]
      split
      · rename_i heq
        exact .checkPassword_right (heq ▸ hkey)
      · rename_i hother
        exact .checkPassword_wrong hkey hother

/-- Without a sealed copy a wallet stands for no other vault than the empty one. -/
theorem Refines.eq_empty (h : wallet.Refines vault) (hnew : wallet.envelope? = none) :
    vault = .empty := by
  cases vault with
  | empty => rfl
  | foreign envelope => exact absurd h.1 (by simp [hnew])
  | bound isLocked header key keys =>
    obtain ⟨⟨envelope, henvelope, -⟩, -⟩ := h
    exact absurd henvelope (by simp [hnew])

theorem Refines.header?_eq (h : wallet.Refines vault) {envelope : Envelope}
    (henvelope : wallet.envelope? = some envelope) : vault.header? = some envelope.kdf := by
  cases vault with
  | empty => exact absurd henvelope (by simp [h.1])
  | foreign envelope' =>
    rw [h.1] at henvelope
    cases henvelope
    rfl
  | bound isLocked header key keys =>
    obtain ⟨⟨envelope', henvelope', hholds⟩, -⟩ := h
    rw [henvelope'] at henvelope
    cases henvelope
    rw [Vault.header?, hholds.1]

theorem Refines.permits_unlock (h : wallet.Refines vault) {password : String} {done : End Unit}
    (hdone : Unlocking password wallet world done) :
    wallet.Permits vault (.unlock password) world (done.1.map fun _ => none, done.2) := by
  cases hdone with
  | unset hnew =>
    obtain rfl := h.eq_empty hnew
    exact ⟨_, .unlock_unset, h⟩
  | underived henvelope hkey => exact ⟨vault, .unlock_underived (h.header?_eq henvelope) hkey, h⟩
  | @refused envelope other fault henvelope hkey hopen =>
    refine ⟨vault, .unlock_wrong (h.header?_eq henvelope) hkey ?_, h⟩
    intro hbound
    -- a sealed copy opens under the wallet key that its vault is bound to
    cases vault with
    | empty => exact absurd hbound (by simp [Vault.key?])
    | foreign envelope => exact absurd hbound (by simp [Vault.key?])
    | bound isLocked header key keys =>
      cases hbound
      obtain ⟨⟨envelope', henvelope', -, opened, hopened, -⟩, -⟩ := h
      rw [henvelope'] at henvelope
      cases henvelope
      exact absurd hopen (by simp [hopened])
  | @opened envelope other opened henvelope hkey hopen =>
    have hrefines : ({ wallet with session? := some ⟨other, KeyMap.ofKeys opened⟩ } :
        SoftWallet).Refines (.bound false envelope.kdf other (KeyMap.ofKeys opened)) :=
      ⟨⟨envelope, henvelope, rfl, opened, hopen, rfl⟩, rfl⟩
    by_cases hbound : vault.key? = some other
    · cases vault with
      | empty => exact absurd hbound (by simp [Vault.key?])
      | foreign envelope => exact absurd hbound (by simp [Vault.key?])
      | bound isLocked header key keys =>
        -- opening is a function of the sealed copy and the key, so the keys are those of the vault
        cases hbound
        obtain ⟨⟨envelope', henvelope', hheader', opened', hopened', hkeys⟩, -⟩ := h
        rw [henvelope'] at henvelope
        cases henvelope
        rw [hopened'] at hopen
        cases hopen
        rw [hheader', hkeys] at hrefines
        rw [hheader'] at hkey
        rw [hkeys]
        exact ⟨_, .unlock_bound hkey, hrefines⟩
    · exact ⟨_, .unlock_other (h.header?_eq henvelope) hkey hbound, hrefines⟩

/-- Committing keys is storing them. -/
theorem Commit.storing [Suite.LawfulCipher] {envelope : Envelope} {session : Session}
    {keys : KeyMap} {done : End Unit} (hcommit : Commit keys wallet envelope session world done)
    (hkeys : keys.Filed) :
    Vault.Storing wallet.path world (.bound false envelope.kdf session.key keys) done.1
      done.2.2 := by
  have hcopy : ∀ {copy : Envelope}, copy.Seals keys session.key envelope.kdf →
      (Vault.bound false envelope.kdf session.key keys).CopiedBy copy :=
    fun hseals => hseals.holds hkeys
  cases hcommit with
  | unsealed hdrew hcipher => exact .unsealed hdrew hcipher
  | unsaved hseals hdrew hsave => exact .saved (hcopy hseals) hdrew hsave
  | saved hseals hdrew hsave => exact .saved (hcopy hseals) hdrew hsave

/-- Committed keys are the vault's new map; if they cannot be committed, the wallet is as before. -/
theorem Commit.refines [Suite.LawfulCipher] {envelope : Envelope} {session : Session}
    {keys : KeyMap} {done : End Unit} (hcommit : Commit keys wallet envelope session world done)
    (hkeys : keys.Filed) :
    (done.1 = .ok () ∧ done.2.1.Refines (.bound false envelope.kdf session.key keys)) ∨
      ∃ error : Error, done.1 = .error error ∧ done.2.1 = wallet := by
  cases hcommit with
  | unsealed hdrew hcipher => exact .inr ⟨_, rfl, rfl⟩
  | unsaved hseals hdrew hsave => exact .inr ⟨_, rfl, rfl⟩
  | saved hseals hdrew hsave => exact .inl ⟨rfl, ⟨_, rfl, hseals.holds hkeys⟩, rfl⟩

theorem Refines.permits_importKey [Suite.LawfulCipher] (h : wallet.Refines vault)
    {key : PrivateKey} (made : key.WellFormed) {done : End PublicKey}
    (hdone : Import key wallet world done) :
    wallet.Permits vault (.importKey key made) world (done.1.map some, done.2) := by
  cases hdone with
  | locked hlocked =>
    exact ⟨vault, .importKey_locked (by rw [← h.session_isNone, hlocked]; rfl), h⟩
  | known hsession hknown =>
    obtain ⟨envelope, henvelope, rfl, hholds⟩ := h.eq_bound hsession
    exact ⟨_, .importKey_known hknown, h⟩
  | @committed envelope session result wallet' world' henvelope hsession hnew hcommit =>
    obtain ⟨rfl, hholds⟩ := h.eq_bound_of_open henvelope hsession
    have hfiled := hholds.filed.insert made
    have hstoring := hcommit.storing hfiled
    obtain ⟨rfl, hrefines⟩ | ⟨error, rfl, rfl⟩ := hcommit.refines hfiled
    · exact ⟨_, .importKey_done hnew hstoring, hrefines⟩
    · exact ⟨_, .importKey_failed hnew hstoring, h⟩

theorem Refines.permits_removeKey [Suite.LawfulCipher] (h : wallet.Refines vault)
    {key : PublicKey} {done : End Unit} (hdone : Removal key wallet world done) :
    wallet.Permits vault (.removeKey key) world (done.1.map fun _ => none, done.2) := by
  cases hdone with
  | locked hlocked =>
    exact ⟨vault, .removeKey_locked (by rw [← h.session_isNone, hlocked]; rfl), h⟩
  | unknown hsession hunknown =>
    obtain ⟨envelope, henvelope, rfl, hholds⟩ := h.eq_bound hsession
    exact ⟨_, .removeKey_unknown hunknown, h⟩
  | committed henvelope hsession hknown hcommit =>
    obtain ⟨rfl, hholds⟩ := h.eq_bound_of_open henvelope hsession
    obtain ⟨result, wallet', world'⟩ := done
    have hfiled := hholds.filed.erase key
    have hstoring := hcommit.storing hfiled
    obtain ⟨rfl, hrefines⟩ | ⟨error, rfl, rfl⟩ := hcommit.refines hfiled
    · exact ⟨_, .removeKey_done hknown hstoring, hrefines⟩
    · exact ⟨_, .removeKey_failed hknown hstoring, h⟩

theorem Refines.permits_createKey [Suite.LawfulCipher] (h : wallet.Refines vault)
    {keyType : KeyType} {done : End PublicKey} (hdone : Creation keyType wallet world done) :
    wallet.Permits vault (.createKey keyType) world (done.1.map some, done.2) := by
  cases hdone with
  | noKeyPair hkey =>
    cases keyType with
    | ed25519 => exact absurd (congrArg Prod.fst hkey) (Option.some_ne_none _)
    | falcon512 => exact ⟨vault, .createKey_noKeyPair hkey, h⟩
  | imported hkey himport =>
    obtain ⟨vault', hallows, hrefines⟩ :=
      h.permits_importKey (PrivateKey.wellFormed_of_generate hkey) himport
    exact ⟨vault', .createKey_imported hkey hallows, hrefines⟩

theorem Refines.permits_save [Suite.LawfulCipher] (h : wallet.Refines vault) {done : End Unit}
    (hdone : Saving wallet world done) :
    wallet.Permits vault .save world (done.1.map fun _ => none, done.2) := by
  cases hdone with
  | unset hnew =>
    obtain rfl := h.eq_empty hnew
    exact ⟨_, .save_unset, h⟩
  | unsealed hsession hdrew hcipher =>
    obtain ⟨envelope, henvelope, rfl, -⟩ := h.eq_bound hsession
    exact ⟨_, .save_stored (.unsealed hdrew hcipher), h⟩
  | @resealed envelope copy session _ _ _ henvelope hsession hseals hdrew hsave =>
    obtain ⟨rfl, hholds⟩ := h.eq_bound_of_open henvelope hsession
    have hcopy : (Vault.bound false envelope.kdf session.key session.keys).CopiedBy copy :=
      hseals.holds hholds.filed
    exact ⟨_, .save_stored (.saved hcopy hdrew hsave), ⟨_, rfl, hcopy⟩, h.2⟩
  | copied henvelope hlocked hsave =>
    exact ⟨vault, .save_stored (.saved (h.copiedBy henvelope) (.refl world) hsave), h⟩

/-- Every operation of a wallet is one that its vault allows. -/
theorem Refines.step [Suite.LawfulCipher] (h : wallet.Refines vault) (step : Step)
    (world : World) : wallet.Permits vault step world (step.perform.outcome (wallet, world)) := by
  have hbound := h.coupled.isBound
  cases step with
  | setPassword password =>
    rw [Step.perform, Act.outcome_map]
    exact h.permits_setPassword (setPassword_spec password wallet world)
  | checkPassword password => exact h.permits_checkPassword password world
  | unlock password =>
    rw [Step.perform, Act.outcome_map]
    exact h.permits_unlock (unlock_spec password wallet world)
  | lock => exact ⟨vault.lock, .lock, h.lock⟩
  | importKey key made =>
    rw [Step.perform, Act.outcome_map]
    exact h.permits_importKey made (importKey_spec key hbound world)
  | removeKey key =>
    rw [Step.perform, Act.outcome_map]
    exact h.permits_removeKey (removeKey_spec key hbound world)
  | createKey keyType =>
    rw [Step.perform, Act.outcome_map]
    exact h.permits_createKey (createKey_spec keyType hbound world)
  | load =>
    rw [Step.perform, Act.outcome_map]
    have hload := load_spec wallet world
    generalize SoftWallet.load.outcome (wallet, world) = done at hload ⊢
    cases hload with
    | failed hload => exact ⟨vault, .load_failed hload, h⟩
    | loaded hload => exact ⟨_, .load_done hload, rfl, rfl⟩
  | save =>
    rw [Step.perform, Act.outcome_map]
    exact h.permits_save (save_spec hbound world)

end Permits

/-- Every wallet that can come about stands for a vault. -/
theorem Reachable.refines [Suite.LawfulCipher] {wallet : SoftWallet} (h : wallet.Reachable) :
    ∃ vault, wallet.Refines vault := by
  induction h with
  | new path cost => exact ⟨.empty, rfl, rfl⟩
  | step hreachable step world ih =>
    obtain ⟨vault, hrefines⟩ := ih
    obtain ⟨vault', -, hrefines'⟩ := hrefines.step step world
    exact ⟨vault', hrefines'⟩

/-- The password of the wallet key opens the wallet. -/
theorem Refines.outcome_unlock {wallet : SoftWallet} {isLocked : Bool} {header : KdfHeader}
    {key : Block 32} {keys : KeyMap} {password : String}
    (h : wallet.Refines (.bound isLocked header key keys))
    (hkey : header.deriveKey password = .ok key) (world : World) :
    (SoftWallet.unlock password).outcome (wallet, world) =
      (.ok (), { wallet with session? := some ⟨key, keys⟩ }, world) := by
  obtain ⟨⟨envelope, henvelope, rfl, opened, hopen, rfl⟩, -⟩ := h
  have hunlock := unlock_spec password wallet world
  generalize (SoftWallet.unlock password).outcome (wallet, world) = done at hunlock ⊢
  -- the sealed copy and the wallet key are known, so unlocking can end in one way only
  cases hunlock with
  | unset hnew => exact absurd (hnew.symm.trans henvelope) (by simp)
  | underived henvelope' hfault =>
    rw [henvelope] at henvelope'
    cases henvelope'
    exact absurd (hkey.symm.trans hfault) (by simp)
  | refused henvelope' hkey' hfault =>
    rw [henvelope] at henvelope'
    cases henvelope'
    rw [hkey] at hkey'
    cases hkey'
    exact absurd (hopen.symm.trans hfault) (by simp)
  | opened henvelope' hkey' hopen' =>
    rw [henvelope] at henvelope'
    cases henvelope'
    rw [hkey] at hkey'
    cases hkey'
    rw [hopen] at hopen'
    cases hopen'
    rfl

/-- Locking a wallet and unlocking it with its password gives the wallet back. -/
theorem Coupled.unlock_lock {wallet : SoftWallet} (h : wallet.Coupled) {session : Session}
    {envelope : Envelope} {password : String} (hsession : wallet.session? = some session)
    (henvelope : wallet.envelope? = some envelope)
    (hkey : envelope.kdf.deriveKey password = .ok session.key) (world : World) :
    (SoftWallet.unlock password).outcome (wallet.lock, world) = (.ok (), wallet, world) := by
  obtain ⟨sealed, opened, hsealed, hopen, hkeys, -⟩ := h session hsession
  rw [henvelope] at hsealed
  cases hsealed
  have hlocked : wallet.lock.Refines (.bound true envelope.kdf session.key session.keys) :=
    ⟨⟨envelope, henvelope, rfl, opened, hopen, hkeys⟩, rfl⟩
  rw [hlocked.outcome_unlock hkey]
  obtain ⟨path, cost, envelope?, session?⟩ := wallet
  cases hsession
  rfl

/-- Whatever has been done to a soft wallet, it is a vault: its session agrees with its sealed copy,
    every operation answers and changes it as the vault's does, locking loses nothing that the
    password does not bring back, and once it has a password it keeps one. -/
theorem Reachable.is_vault [Suite.LawfulCipher] {wallet : SoftWallet} (h : wallet.Reachable) :
    wallet.Coupled ∧
    (∃ vault, wallet.Refines vault) ∧
    (∀ vault, wallet.Refines vault → ∀ (step : Step) (world : World),
      wallet.Permits vault step world (step.perform.outcome (wallet, world))) ∧
    (∀ (session : Session) (envelope : Envelope) (password : String) (world : World),
      wallet.session? = some session → wallet.envelope? = some envelope →
      envelope.kdf.deriveKey password = .ok session.key →
      (SoftWallet.unlock password).outcome (wallet.lock, world) = (.ok (), wallet, world)) ∧
    (wallet.isNew = false → ∀ (step : Step) (world : World),
      (∀ path, (step.perform.outcome (wallet, world)).1 ≠ .error (.noPasswordSet path)) ∧
        (step.perform.outcome (wallet, world)).2.1.isNew = false) := by
  obtain ⟨vault, hrefines⟩ := h.refines
  refine ⟨hrefines.coupled, ⟨vault, hrefines⟩, fun vault' h' step world => h'.step step world, ?_,
    ?_⟩
  · intro session envelope password world hsession henvelope hkey
    exact hrefines.coupled.unlock_lock hsession henvelope hkey world
  · intro hset step world
    obtain ⟨vault', hallows, hrefines'⟩ := hrefines.step step world
    have hne : vault ≠ .empty := by
      rintro rfl
      exact absurd hset (by simp [isNew, hrefines.1])
    obtain ⟨hanswer, hne'⟩ := hallows.set_of_set hne
    refine ⟨hanswer, ?_⟩
    unfold isNew
    cases vault' with
    | empty => exact absurd rfl hne'
    | foreign envelope => simp [hrefines'.1]
    | bound isLocked header key keys =>
      obtain ⟨⟨envelope, henvelope, -⟩, -⟩ := hrefines'
      simp [henvelope]

end SoftWallet

end

section Plain

/-! ## A wallet with a key -/

namespace SoftWallet

local instance vaultPrimitives : Suite := Suite.plain

/-- A wallet that has been given a password and opened with it, and holds a fresh key. -/
def withKey : SoftWallet :=
  let new : SoftWallet × World := (.new (.ofString "w") .light, .blank)
  let locked := ((Step.setPassword "open").perform.outcome new).2
  let opened := ((Step.unlock "open").perform.outcome locked).2
  ((Step.createKey .ed25519).perform.outcome opened).2.1

theorem reachable_withKey : Reachable withKey := by
  have hlocked := Reachable.step (.new (.ofString "w") .light) (.setPassword "open") .blank
  have hopened := hlocked.step (.unlock "open")
    ((Step.setPassword "open").perform.outcome (.new (.ofString "w") .light, .blank)).2.2
  exact hopened.step (.createKey .ed25519) _

/-- The wallet is open with its one key, and is the same again after it has been locked and opened. -/
theorem is_vault_of_createKey : Reachable withKey ∧ ∃ session envelope,
    withKey.session? = some session ∧ withKey.envelope? = some envelope ∧
      session.keys.size = 1 ∧ withKey.Coupled ∧
      envelope.kdf.deriveKey "open" = .ok session.key ∧
      (SoftWallet.unlock "open").outcome (withKey.lock, .blank) = (.ok (), withKey, .blank) := by
  obtain ⟨hcoupled, -, -, hback, -⟩ := reachable_withKey.is_vault
  have hstate : (withKey.session?.bind fun session => withKey.envelope?.map fun envelope =>
      (session.keys.size, decide (envelope.kdf.deriveKey "open" = .ok session.key))) =
      some (1, true) := by decide +kernel
  obtain ⟨session, hsession, hrest⟩ := Option.bind_eq_some_iff.1 hstate
  obtain ⟨envelope, henvelope, hfacts⟩ := Option.map_eq_some_iff.1 hrest
  obtain ⟨hsize, hkey⟩ := Prod.mk.inj hfacts
  exact ⟨reachable_withKey, session, envelope, hsession, henvelope, hsize, hcoupled,
    of_decide_eq_true hkey,
    hback session envelope "open" .blank hsession henvelope (of_decide_eq_true hkey)⟩

end SoftWallet

end Plain

end Custody
