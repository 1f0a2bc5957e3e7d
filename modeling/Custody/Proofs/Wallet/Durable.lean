import Custody.Proofs.Wallet.Files

set_option autoImplicit false

/-! # A wallet and its file hold the same keys

Beside the session and the sealed copy of a wallet stands a third copy of its keys, the file. All
three hold the same map under the same header and wallet key (`SoftWallet.Durable`), and every
operation that changes the map changes all three of them, or none when it fails, at whatever step
that is: `SoftWallet.Import.durable`, `SoftWallet.Removal.durable`, `SoftWallet.Creation.durable`.
-/

namespace Custody

variable [Suite]

/-! ## Keys in a file -/

/-- The file at the path is a sealed copy that holds the keys under a header and a wallet key. -/
def Disk.Stores (disk : Disk) (path : Path) (header : KdfHeader) (key : Block 32) (keys : KeyMap) :
    Prop :=
  ∃ file envelope, disk.inspect path = .ok (.file file) ∧ Envelope.IsFile envelope file ∧
    envelope.Holds header key keys

section Stores

variable {disk disk' : Disk} {path : Path} {header : KdfHeader} {key : Block 32} {keys : KeyMap}

theorem Disk.Stores.of_spares (h : disk.Stores path header key keys)
    (hspares : Disk.Spares path disk disk') : disk'.Stores path header key keys := by
  obtain ⟨file, envelope, hfile, hrest⟩ := h
  exact ⟨file, envelope, hspares _ hfile, hrest⟩

/-- What is loaded from the file is the sealed copy with the keys. -/
theorem Disk.Stores.holds_of_load {world world' : World} {envelope : Envelope}
    (h : world.disk.Stores path header key keys)
    (hload : (Envelope.load path).outcome world = (.ok envelope, world')) :
    envelope.Holds header key keys := by
  obtain ⟨file, envelope', hfile, hwhole, hholds⟩ := h
  obtain ⟨file', hfile', hfits, hdecode, -⟩ := (Envelope.load_spec hload).2 envelope rfl
  rw [hfile] at hfile'
  cases hfile'
  rw [hwhole.run_decode hfits] at hdecode
  cases hdecode
  exact hholds

theorem Envelope.Saved.stores [Suite.LawfulCipher] {envelope : Envelope} {dir : Path} {name : Bytes}
    (h : Saved envelope dir name disk disk' (.ok ())) (hseals : envelope.Seals keys key header)
    (hfiled : keys.Filed) : disk'.Stores (dir.join ⟨name⟩) header key keys := by
  obtain ⟨file, hcontent, hfile⟩ := h.whole rfl
  exact ⟨file, envelope, hfile, ⟨hcontent, hseals.version_eq⟩, hseals.holds hfiled⟩

end Stores

namespace SoftWallet

/-! ## Three copies -/

/-- The wallet lies at its path, it stands for a vault that is bound to a header and a wallet key
    and holds the keys, and so does its file. -/
structure Durable (dir : Path) (name : Bytes) (header : KdfHeader) (key : Block 32) (keys : KeyMap)
    (state : SoftWallet × World) : Prop where
  path_eq : state.1.path = dir.join ⟨name⟩
  refines : ∃ isLocked, state.1.Refines (.bound isLocked header key keys)
  stores : state.2.disk.Stores (dir.join ⟨name⟩) header key keys

section Durable

variable {dir : Path} {name : Bytes} {header : KdfHeader} {key : Block 32} {keys : KeyMap}
  {wallet : SoftWallet} {world : World}

/-- The sealed copy and the session of an open wallet. -/
theorem Durable.open_eq (h : Durable dir name header key keys (wallet, world)) {envelope : Envelope}
    {session : Session} (henvelope : wallet.envelope? = some envelope)
    (hsession : wallet.session? = some session) :
    envelope.kdf = header ∧ session = ⟨key, keys⟩ ∧ keys.Filed := by
  obtain ⟨isLocked, hrefines⟩ := h.refines
  obtain ⟨hvault, hholds⟩ := hrefines.eq_bound_of_open henvelope hsession
  cases hvault
  exact ⟨rfl, rfl, hholds.filed⟩

/-- New keys are in all three copies, or the old ones are. -/
theorem Commit.durable [Suite.LawfulCipher] (h : Durable dir name header key keys (wallet, world))
    (hname : Path.IsFileName name) {envelope : Envelope} {session : Session}
    (henvelope : wallet.envelope? = some envelope) (hsession : wallet.session? = some session)
    {keys' : KeyMap} (hfiled : keys'.Filed) {done : End Unit}
    (hcommit : Commit keys' wallet envelope session world done) :
    Durable dir name header key (if done.1.isOk then keys' else keys) done.2 := by
  obtain ⟨hheader, hopen, -⟩ := h.open_eq henvelope hsession
  subst hheader
  subst hopen
  refine ⟨hcommit.saves.confined.path_eq.trans h.path_eq, ?_, ?_⟩
  · rcases hcommit.refines hfiled with ⟨hresult, hrefines⟩ | ⟨error, hresult, hwallet⟩
    · rw [hresult]
      exact ⟨false, hrefines⟩
    · rw [hresult, hwallet]
      exact h.refines
  · have hstores := h.stores
    cases hcommit with
    | unsealed hdrew hcipher => exact hdrew.disk_eq ▸ hstores
    | unsaved hseals hdrew hsave =>
      rw [h.path_eq] at hsave
      have hspares := (Envelope.saved_save hname hsave).kept (by simp)
      rw [hdrew.disk_eq] at hspares
      exact hstores.of_spares hspares
    | saved hseals hdrew hsave =>
      rw [h.path_eq] at hsave
      exact (Envelope.saved_save hname hsave).stores hseals hfiled

theorem Import.durable [Suite.LawfulCipher] (h : Durable dir name header key keys (wallet, world))
    (hname : Path.IsFileName name) {added : PrivateKey} (made : added.WellFormed)
    {done : End PublicKey} (hdone : Import added wallet world done) :
    Durable dir name header key
      (if done.1.isOk then keys.insert added.publicKey added else keys) done.2 := by
  cases hdone with
  | locked hlocked => exact h
  | known hsession hknown => exact h
  | @committed envelope session result wallet' world' henvelope hsession hnew hcommit =>
    obtain ⟨-, hopen, hfiled⟩ := h.open_eq henvelope hsession
    subst hopen
    have hdurable := hcommit.durable h hname henvelope hsession (hfiled.insert made)
    cases result <;> exact hdurable

theorem Removal.durable [Suite.LawfulCipher] (h : Durable dir name header key keys (wallet, world))
    (hname : Path.IsFileName name) {removed : PublicKey} {done : End Unit}
    (hdone : Removal removed wallet world done) :
    Durable dir name header key (if done.1.isOk then keys.erase removed else keys) done.2 := by
  cases hdone with
  | locked hlocked => exact h
  | unknown hsession hunknown => exact h
  | committed henvelope hsession hknown hcommit =>
    obtain ⟨-, hopen, hfiled⟩ := h.open_eq henvelope hsession
    subst hopen
    exact hcommit.durable h hname henvelope hsession (hfiled.erase removed)

/-- The keys after a fresh one was to be added, drawn from a random source. -/
def withFresh (keys : KeyMap) (keyType : KeyType) (entropy : Entropy) : KeyMap :=
  match ((PrivateKey.generate keyType).run entropy).1 with
  | some fresh => keys.insert fresh.publicKey fresh
  | none => keys

theorem Creation.durable [Suite.LawfulCipher] (h : Durable dir name header key keys (wallet, world))
    (hname : Path.IsFileName name) {keyType : KeyType} {done : End PublicKey}
    (hdone : Creation keyType wallet world done) :
    Durable dir name header key
      (if done.1.isOk then withFresh keys keyType world.entropy else keys) done.2 := by
  cases hdone with
  | noKeyPair hkey => exact ⟨h.path_eq, h.refines, h.stores⟩
  | @imported fresh entropy _ hkey himport =>
    have hstart : Durable dir name header key keys (wallet, { world with entropy }) :=
      ⟨h.path_eq, h.refines, h.stores⟩
    have hdurable := himport.durable hstart hname (PrivateKey.wellFormed_of_generate hkey)
    unfold withFresh
    rw [hkey]
    exact hdurable

/-- Unlocking keeps what all copies hold, unless the wallet was opened with another wallet key. -/
theorem Unlocking.durable (h : Durable dir name header key keys (wallet, world)) {password : String}
    {done : End Unit} (hdone : Unlocking password wallet world done)
    (hkey : done.1 = .ok () → ∀ other, header.deriveKey password = .ok other → other = key) :
    Durable dir name header key keys done.2 := by
  obtain ⟨isLocked, hrefines⟩ := h.refines
  have hpath := hdone.saves.confined.path_eq.trans h.path_eq
  obtain ⟨vault, hallows, hrefines'⟩ := hrefines.permits_unlock hdone
  have hdisk : done.2.2 = world := by cases hdone <;> rfl
  refine ⟨hpath, ?_, hdisk ▸ h.stores⟩
  generalize hanswer : done.1.map (fun _ : Unit => (none : Option PublicKey)) = answer at hallows
  -- a vault allows a locked wallet to be opened under another key, as long as the copy opens
  cases hallows with
  | unlock_underived hheader hfault => exact ⟨isLocked, hrefines'⟩
  | unlock_wrong hheader hderive hother => exact ⟨isLocked, hrefines'⟩
  | unlock_bound hderive => exact ⟨false, hrefines'⟩
  | unlock_other hheader hderive hother =>
    cases hheader
    have hok : done.1 = .ok () := by
      cases hresult : done.1 with
      | error error =>
        rw [hresult] at hanswer
        exact absurd hanswer (by simp [Except.map])
      | ok _ => rfl
    exact absurd (congrArg some (hkey hok _ hderive).symm) hother

/-! ## New wallets -/

/-- A wallet with a password of its own key is opened by it. -/
theorem refines_of_unlock {state : SoftWallet × World} {password : String} {isLocked : Bool}
    (h : wallet.Refines (.bound isLocked header key keys))
    (hkey : header.deriveKey password = .ok key)
    (hunlock : (unlock password).outcome (wallet, world) = (.ok (), state)) :
    state.1.Refines (.bound false header key keys) ∧ state.1.path = wallet.path ∧
      state.2 = world := by
  have hspec := unlock_spec password wallet world
  rw [hunlock] at hspec
  obtain ⟨vault, hallows, hrefines⟩ := h.permits_unlock hspec
  have hpath := hspec.saves.confined.path_eq
  refine ⟨?_, hpath, ?_⟩
  · cases hallows with
    | unlock_bound hderive => exact hrefines
    | unlock_other hheader hderive hother =>
      cases hheader
      rw [hkey] at hderive
      cases hderive
      exact absurd rfl hother
  · cases hspec
    rfl

/-- Saving an open wallet brings its keys to its file. -/
theorem Saving.durable [Suite.LawfulCipher] (hname : Path.IsFileName name)
    (h : wallet.Refines (.bound false header key keys)) (hpath : wallet.path = dir.join ⟨name⟩)
    {done : End Unit} (hdone : Saving wallet world done) (hok : done.1 = .ok ()) :
    Durable dir name header key keys done.2 := by
  obtain ⟨⟨envelope, henvelope, hholds⟩, hopen⟩ := h
  have hheader := hholds.1
  subst hheader
  cases hdone with
  | unset hnew => exact absurd hok (by simp)
  | unsealed hsession hdrew => exact absurd hok (by simp)
  | copied henvelope' hlocked hsave => exact absurd (hlocked.symm.trans hopen) (by simp)
  | @resealed _ envelope' session world₁ world' result henvelope' hsession hseals hdrew hsave =>
    rw [henvelope] at henvelope'
    cases henvelope'
    rw [hopen] at hsession
    cases hsession
    have hresult : result = .ok () := Act.eq_ok_of_mapError hok
    subst hresult
    rw [hpath] at hsave
    have hfiled := hholds.filed
    exact ⟨hpath, ⟨false, ⟨envelope', rfl, hseals.holds hfiled⟩, hopen⟩,
      (Envelope.saved_save hname hsave).stores hseals hfiled⟩

/-- A new wallet that has been made is durable, empty, and bound to what its password derives. -/
theorem durable_prepareNew [Suite.LawfulCipher] (hname : Path.IsFileName name) {cost : KdfCost}
    {password : String} {world' : World}
    (hprepare : (Manager.preparing (.new (dir.join ⟨name⟩) cost)
      (Manager.prepareNew password)).outcome world = (.ok wallet, world')) :
    ∃ header key, header.deriveKey password = .ok key ∧
      Durable dir name header key ∅ (wallet, world') := by
  have hdone := Manager.outcome_of_preparing hprepare
  unfold Manager.prepareNew at hdone
  -- the password is set, tried out, and tried out once more after locking
  obtain ⟨_, ⟨wallet₁, world₁⟩, hset, hdone⟩ := Act.exists_of_outcome_bind_eq_ok hdone
  obtain ⟨_, ⟨wallet₂, world₂⟩, hunlock, hdone⟩ := Act.exists_of_outcome_bind_eq_ok hdone
  obtain ⟨_, ⟨wallet₃, world₃⟩, hlock, hdone⟩ := Act.exists_of_outcome_bind_eq_ok hdone
  obtain ⟨_, ⟨wallet₄, world₄⟩, hunlock', hsave⟩ := Act.exists_of_outcome_bind_eq_ok hdone
  have hrebinding := setPassword_spec password (.new (dir.join ⟨name⟩) cost) world
  rw [hset] at hrebinding
  cases hrebinding with
  | @rebound salt key envelope _ hallowed hdrew hkey hseals =>
    have hempty : heldKeys (.new (dir.join ⟨name⟩) cost) = ∅ := rfl
    rw [hempty] at hseals
    have hrefines₁ : SoftWallet.Refines ⟨dir.join ⟨name⟩, cost, some envelope, none⟩
        (.bound true ⟨cost, salt⟩ key ∅) := ⟨⟨envelope, rfl, hseals.holds .empty⟩, rfl⟩
    obtain ⟨hrefines₂, hpath₂, rfl⟩ := refines_of_unlock hrefines₁ hkey hunlock
    cases hlock
    obtain ⟨hrefines₄, hpath₄, rfl⟩ := refines_of_unlock hrefines₂.lock hkey hunlock'
    have hpath : wallet₄.path = dir.join ⟨name⟩ := hpath₄.trans hpath₂
    have hsaving := save_spec hrefines₄.coupled.isBound world₄
    rw [hsave] at hsaving
    exact ⟨⟨cost, salt⟩, key, hkey, hsaving.durable hname hrefines₄ hpath rfl⟩

end Durable

end SoftWallet

end Custody
