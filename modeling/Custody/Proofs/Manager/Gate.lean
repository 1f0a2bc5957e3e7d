import Custody.Proofs.Manager.Listing
import Custody.Proofs.Manager.Origin
import Custody.Proofs.Wallet.Lasting

set_option autoImplicit false

/-! # The password gate

What stands between anybody and the private keys in a manager of soft wallets. A wallet comes to be
unlocked by the password that opens its sealed copy, unless it is new or was unlocked when it was
handed over (`Manager.Admits`); private keys are given away for the password of an unlocked wallet
only; and a wallet loses a key to whoever knows that password, or to another wallet that takes its
place (`SoftWallet.Loses`). `Manager.Reachable.password_gate` shows all three for every command. -/

namespace Custody

section

variable [Suite]

/-! ## Changing the keys of an open vault -/

namespace Vault.Allows

variable {path : Path} {cost : KdfCost} {world world' : World} {header : KdfHeader}
  {vaultKey : Block 32} {keys : KeyMap} {vault' : Vault} {result : Except Error (Option PublicKey)}

theorem exists_of_importKey {key : PrivateKey} {made : key.WellFormed}
    (h : Allows path cost world (.bound false header vaultKey keys) (.importKey key made) result
      vault' world') :
    ∃ keys', vault' = .bound false header vaultKey keys' ∧ ∀ pub ∈ keys, pub ∈ keys' := by
  cases h with
  | importKey_locked hlocked => exact absurd hlocked (by simp [isLocked])
  | importKey_known hknown => exact ⟨keys, rfl, fun _ hpub => hpub⟩
  | importKey_failed hnew hstoring => exact ⟨keys, rfl, fun _ hpub => hpub⟩
  | importKey_done hnew hstoring =>
    exact ⟨_, rfl, fun _ hpub => Std.ExtTreeMap.mem_insert.2 (.inr hpub)⟩

theorem exists_of_createKey {keyType : KeyType}
    (h : Allows path cost world (.bound false header vaultKey keys) (.createKey keyType) result
      vault' world') :
    ∃ keys', vault' = .bound false header vaultKey keys' ∧ ∀ pub ∈ keys, pub ∈ keys' := by
  cases h with
  | createKey_noKeyPair hkey => exact ⟨keys, rfl, fun _ hpub => hpub⟩
  | createKey_imported hkey himport => exact himport.exists_of_importKey

theorem exists_of_removeKey {key : PublicKey}
    (h : Allows path cost world (.bound false header vaultKey keys) (.removeKey key) result vault'
      world') :
    ∃ keys', vault' = .bound false header vaultKey keys' ∧
      ∀ pub ∈ keys, pub ∈ keys' ∨ (pub = key ∧ result = .ok none) := by
  cases h with
  | removeKey_locked hlocked => exact absurd hlocked (by simp [isLocked])
  | removeKey_unknown hunknown => exact ⟨keys, rfl, fun _ hpub => .inl hpub⟩
  | removeKey_failed hknown hstoring => exact ⟨keys, rfl, fun _ hpub => .inl hpub⟩
  | removeKey_done hknown hstoring =>
    refine ⟨_, rfl, fun pub hpub => ?_⟩
    by_cases hkey : pub = key
    · exact .inr ⟨hkey, rfl⟩
    · refine .inl (Std.ExtTreeMap.mem_erase.2 ⟨?_, hpub⟩)
      rw [Ne, Std.LawfulEqOrd.compare_eq_iff_eq]
      exact fun heq => hkey heq.symm

end Vault.Allows

/-! ## The keys of a wallet -/

namespace SoftWallet

/-- The sealed copy opens under the wallet key, to keys of which one has the public half. -/
def Carries (wallet : SoftWallet) (key : Block 32) (pub : PublicKey) : Prop :=
  ∃ envelope opened, wallet.envelope? = some envelope ∧ envelope.openKeys key = .ok opened ∧
    pub ∈ KeyMap.ofKeys opened

/-- How a wallet can lose a key: another wallet takes its place, or the key is removed for the
    password of the open wallet. -/
inductive Loses (wallet : SoftWallet) (name : WalletName) (pub : PublicKey) :
    Command SoftWallet → Except Error Reply → Prop
  | created {password : String} :
    Loses wallet name pub (.create name.text) (.ok (.password password))
  | opened : Loses wallet name pub (.openWallet name.text) (.ok .done)
  | removed {password text : String} {session : Session}
    (haccepts : wallet.Accepts password session) (hkey : PublicKey.ofText text = .ok pub) :
    Loses wallet name pub (.removeKey name.text password text) (.ok .done)

variable {wallet wallet' : SoftWallet} {key : Block 32} {pub : PublicKey}

/-- A command that fails takes no key away. -/
theorem Loses.isOk {name : WalletName} {command : Command SoftWallet} {result : Except Error Reply}
    (h : wallet.Loses name pub command result) : result.isOk = true := by
  cases h <;> rfl

theorem Carries.of_envelope_eq (h : wallet.Carries key pub)
    (henvelope : wallet'.envelope? = wallet.envelope?) : wallet'.Carries key pub := by
  unfold Carries
  rw [henvelope]
  exact h

/-- The sealed copy of an open wallet carries the keys of its session. -/
theorem Coupled.carries_iff (h : wallet.Coupled) {session : Session}
    (hsession : wallet.session? = some session) :
    wallet.Carries session.key pub ↔ pub ∈ session.keys := by
  obtain ⟨envelope, opened, henvelope, hopen, hkeys, -⟩ := h session hsession
  constructor
  · rintro ⟨envelope', opened', henvelope', hopen', hpub⟩
    rw [henvelope] at henvelope'
    cases henvelope'
    rw [hopen] at hopen'
    cases hopen'
    exact hkeys ▸ hpub
  · intro hpub
    exact ⟨envelope, opened, henvelope, hopen, hkeys.symm ▸ hpub⟩

variable {header : KdfHeader} {keys : KeyMap} {world world' : World} {command : Command SoftWallet}
  {name : String} {request : Request} {act : Operation Reply} {result : Except Error Reply}

/-- A command that changes the keys of an open wallet leaves it open under the same wallet key, and
    takes no other key away than the one that it names. -/
theorem Refines.exists_of_changes [Suite.LawfulCipher]
    (h : wallet.Refines (.bound false header key keys))
    (hchanges : command.Changes name request act)
    (hact : act.outcome (wallet, world) = (result, wallet', world')) :
    ∃ keys', wallet'.Refines (.bound false header key keys') ∧ ∀ pub ∈ keys, pub ∈ keys' ∨
      ∃ password text, command = .removeKey name password text ∧ PublicKey.ofText text = .ok pub ∧
        result = .ok .done := by
  have hbound := h.coupled.isBound
  cases hchanges with
  | @importKey _ _ imported hkey =>
    have himport := importKey_spec imported hbound world
    change (Reply.publicKey <$> SoftWallet.importKey imported).outcome (wallet, world) = _ at hact
    obtain ⟨answer, hdone, -⟩ := Act.exists_of_outcome_map hact
    rw [hdone] at himport
    obtain ⟨vault', hallows, hrefines⟩ :=
      h.permits_importKey (PrivateKey.wellFormed_of_ofText hkey) himport
    obtain ⟨keys', rfl, hkept⟩ := hallows.exists_of_importKey
    exact ⟨keys', hrefines, fun pub hpub => .inl (hkept pub hpub)⟩
  | @removeKey _ password text removed hkey =>
    have hremoval := removeKey_spec removed hbound world
    change ((fun _ => Reply.done) <$> SoftWallet.removeKey removed).outcome (wallet, world) = _
      at hact
    obtain ⟨answer, hdone, hresult⟩ := Act.exists_of_outcome_map hact
    rw [hdone] at hremoval
    obtain ⟨vault', hallows, hrefines⟩ := h.permits_removeKey hremoval
    obtain ⟨keys', rfl, hkept⟩ := hallows.exists_of_removeKey
    refine ⟨keys', hrefines, fun pub hpub => ?_⟩
    rcases hkept pub hpub with hpub' | ⟨rfl, hanswer⟩
    · exact .inl hpub'
    · refine .inr ⟨password, text, rfl, hkey, ?_⟩
      obtain ⟨done, rfl, -⟩ := Act.exists_of_map_eq_ok hanswer
      exact hresult.symm
  | @createKey _ _ keyType hkey =>
    have hcreation := createKey_spec keyType hbound world
    change (Reply.publicKey <$> SoftWallet.createKey keyType).outcome (wallet, world) = _ at hact
    obtain ⟨answer, hdone, -⟩ := Act.exists_of_outcome_map hact
    rw [hdone] at hcreation
    obtain ⟨vault', hallows, hrefines⟩ := h.permits_createKey hcreation
    obtain ⟨keys', rfl, hkept⟩ := hallows.exists_of_createKey
    exact ⟨keys', hrefines, fun pub hpub => .inl (hkept pub hpub)⟩

end SoftWallet

/-! ## Wallets as a command meets them -/

namespace Manager

variable {manager after : Manager SoftWallet} {world : World} {command : Command SoftWallet}
  {name : WalletName} {wallet wallet' : SoftWallet}

/-- The wallet of the name is unlocked. -/
def Unlocked (manager : Manager SoftWallet) (name : WalletName) : Prop :=
  ∃ wallet, (name, wallet) ∈ manager.wallets ∧ wallet.isLocked = false

/-- Whether a command finds that the window has run out, and locks every wallet first. -/
def expires (manager : Manager SoftWallet) (world : World) (command : Command SoftWallet) : Bool :=
  command.isChecked && (manager.timeout.check (world.time manager.clock)).1

/-- A wallet as a command meets it once it has looked at the timeout. -/
def met (manager : Manager SoftWallet) (world : World) (command : Command SoftWallet)
    (wallet : SoftWallet) : SoftWallet :=
  if manager.expires world command then wallet.lock else wallet

omit [Suite] in
theorem envelope?_met : (manager.met world command wallet).envelope? = wallet.envelope? := by
  unfold met
  split <;> rfl

omit [Suite] in
/-- A wallet that a command meets unlocked is as it was before. -/
theorem met_eq_self {session : Session}
    (h : (manager.met world command wallet).session? = some session) :
    manager.expires world command = false ∧ manager.met world command wallet = wallet := by
  unfold met at h ⊢
  split at h
  · exact absurd h (by simp [SoftWallet.lock])
  · rename_i hlasts
    exact ⟨Bool.eq_false_iff.2 hlasts, if_neg hlasts⟩

theorem wallets_start (hdistinct : manager.Distinct) (world : World)
    (command : Command SoftWallet) :
    (command.start ⟨manager, world, []⟩).manager.wallets =
      manager.wallets.map fun entry => (entry.1, manager.met world command entry.2) := by
  have hscene : (⟨manager, world, []⟩ : Scene SoftWallet).manager.Distinct := hdistinct
  unfold Command.start met expires
  by_cases hchecked : command.isChecked = true
  · rw [if_pos hchecked, (Scene.checked_eq hscene).2]
    by_cases hlate : (manager.timeout.check (world.time manager.clock)).1 = true
    · simp [hchecked, hlate, locked_eq_lock]
    · simp [hchecked, hlate]
  · simp [hchecked]

theorem mem_start_iff (hdistinct : manager.Distinct) :
    (name, wallet') ∈ (command.start ⟨manager, world, []⟩).manager.wallets ↔
      ∃ wallet, (name, wallet) ∈ manager.wallets ∧ wallet' = manager.met world command wallet := by
  rw [wallets_start hdistinct, List.mem_map]
  constructor
  · rintro ⟨⟨other, wallet⟩, hmem, heq⟩
    cases heq
    exact ⟨wallet, hmem, rfl⟩
  · rintro ⟨wallet, hmem, rfl⟩
    exact ⟨(name, wallet), hmem, rfl⟩

/-- What a command finds to unlock is what is to be found before it looks at the timeout, but the
    wallet may have been locked by that. -/
theorem finds_start (hdistinct : manager.Distinct)
    (h : (command.start ⟨manager, world, []⟩).manager.Finds world name wallet')
    (hlocked : wallet'.session? = none) : ∃ wallet, manager.Finds world name wallet ∧
      wallet.envelope? = wallet'.envelope? ∧
      (wallet.session? = none ∨ manager.expires world command = true) := by
  rcases h with hmet | ⟨hnew, envelope, hload, rfl⟩
  · obtain ⟨wallet, hmem, rfl⟩ := (mem_start_iff hdistinct).1 hmet
    refine ⟨wallet, .inl hmem, envelope?_met.symm, ?_⟩
    unfold met at hlocked
    split at hlocked
    · exact .inr ‹_›
    · exact .inl hlocked
  · rw [isRegistered_start hdistinct] at hnew
    rw [walletPath_start] at hload
    exact ⟨_, .inr ⟨hnew, envelope, hload, rfl⟩, rfl, .inl rfl⟩

/-! ## What a command may unlock -/

/-- How a wallet can come to be unlocked: it is new, it is taken over, or it is what the password
    opens, which was locked or not registered, unless the look at the timeout has locked it. -/
inductive Admits (manager : Manager SoftWallet) (world : World) (name : WalletName) :
    Command SoftWallet → Except Error Reply → Manager SoftWallet → Prop
  | created {password : String} {after : Manager SoftWallet} :
    Admits manager world name (.create name.text) (.ok (.password password)) after
  | takenOver {command : Command SoftWallet} {wallet : SoftWallet} {reply : Reply}
    {after : Manager SoftWallet}
    (hcommand : command = .own name.text wallet ∨
      name.text = platformName ∧ command = .registerPlatform (.ok wallet))
    (hnew : manager.isRegistered name.text = false) (hmem : (name, wallet) ∈ after.wallets) :
    Admits manager world name command (.ok reply) after
  | unlocked {password : String} {wallet : SoftWallet} {envelope : Envelope} {key : Block 32}
    {keys : List PrivateKey} {after : Manager SoftWallet}
    (hfinds : manager.Finds world name wallet)
    (hclosed : wallet.session? = none ∨
      manager.expires world (.unlock name.text password) = true)
    (henvelope : wallet.envelope? = some envelope)
    (hkey : envelope.kdf.deriveKey password = .ok key) (hopen : envelope.openKeys key = .ok keys) :
    Admits manager world name (.unlock name.text password) (.ok .done) after

theorem unlocked_of_met (hdistinct : manager.Distinct)
    (hmet : (name, wallet') ∈ (command.start ⟨manager, world, []⟩).manager.wallets)
    (hopen : wallet'.isLocked = false) :
    manager.Unlocked name ∧ manager.expires world command = false := by
  obtain ⟨wallet, hmem, rfl⟩ := (mem_start_iff hdistinct).1 hmet
  cases hsession : (manager.met world command wallet).session? with
  | none => exact absurd hopen (by simp [SoftWallet.isLocked, hsession])
  | some session =>
    obtain ⟨hlasts, heq⟩ := met_eq_self hsession
    rw [heq] at hopen
    exact ⟨⟨wallet, hmem, hopen⟩, hlasts⟩

/-- An unlocked wallet was unlocked before, or the command may unlock it. -/
theorem admits_of_origin {result : Except Error Reply} (hdistinct : manager.Distinct)
    (horigin : command.Origin (command.start ⟨manager, world, []⟩) result name wallet')
    (hmem : (name, wallet') ∈ after.wallets) (hopen : wallet'.isLocked = false) :
    (manager.Unlocked name ∧ manager.expires world command = false) ∨
      manager.Admits world name command result after := by
  cases horigin with
  | kept hmet => exact .inl (unlocked_of_met hdistinct hmet hopen)
  | locked hmet => exact absurd hopen (by simp [SoftWallet.isLocked, SoftWallet.lock])
  | changed hmet hbefore => exact .inl (unlocked_of_met hdistinct hmet hbefore)
  | opened hload hcommand => exact absurd hopen (by simp [SoftWallet.isLocked])
  | unlocked hfinds hlocked hcommand hunlock hresult =>
    subst hcommand
    subst hresult
    rw [Command.world_start hdistinct] at hfinds
    obtain ⟨wallet, hfinds, henvelope, hclosed⟩ := finds_start hdistinct hfinds hlocked
    cases hunlock with
    | opened henvelope' hkey hopened =>
      exact .inr (.unlocked hfinds hclosed (henvelope.trans henvelope') hkey hopened)
    | _ => exact absurd hopen (by simp [SoftWallet.isLocked, hlocked])
  | created hcommand hresult =>
    subst hcommand
    subst hresult
    exact .inr .created
  | owned hcommand hnew hresult =>
    subst hresult
    rw [isRegistered_start hdistinct] at hnew
    exact .inr (.takenOver hcommand hnew hmem)

/-- A wallet that has been created is unlocked. -/
theorem unlocked_of_create {text password : String}
    (hok : manager.answer world (Command.create text).perform = .ok (.password password)) :
    ∃ name : WalletName, name.text = text ∧
      (manager.after world (.create text)).Unlocked name := by
  have heffect := (Command.create text : Command SoftWallet).effect ⟨manager, world, []⟩
  unfold answer at hok
  unfold after
  rw [hok] at heffect
  generalize ((Command.create text).perform.outcome ⟨manager, world, []⟩).2 = scene' at heffect ⊢
  generalize hcommand : (Command.create text : Command SoftWallet) = command at heffect
  cases heffect with
  | looked hsaw hchecked hquiet =>
    subst hcommand
    exact absurd (hquiet _ rfl) (by simp [Command.onlyLooks])
  | idle hquiet =>
    subst hcommand
    exact absurd (hquiet _ rfl) (by simp [Command.onlyLooks])
  | changed hchanges => cases hchanges <;> exact absurd hcommand (by simp)
  | owned howns => rcases howns with rfl | ⟨-, rfl⟩ <;> exact absurd hcommand (by simp)
  | @created _ name _ wallet world' hprepared =>
    cases hcommand
    obtain ⟨world₁, -, -, hprepare⟩ := hprepared.prepare
    refine ⟨name, rfl, wallet, (mem_registered _ _).2 (.inl ⟨rfl, rfl⟩), ?_⟩
    have hsession := SoftWallet.isSome_of_prepareNew (outcome_of_preparing hprepare)
    exact Option.isNone_eq_false_iff.2 hsession
  | _ => exact absurd hcommand (by simp)

/-! ## What private keys are given away for -/

/-- Only one command answers with private keys. -/
theorem exists_listKeys_of_keyMap {scene : Scene SoftWallet} {keys : KeyMap}
    (h : (command.perform.outcome scene).1 = .ok (.keyMap keys)) :
    ∃ text password, command = .listKeys text password ∧
      ((listKeys text password).outcome scene).1 = .ok keys := by
  cases command with
  | listKeys text password =>
    obtain ⟨_, hkeys, hreply⟩ := Command.exists_of_bind_return h
    cases hreply
    exact ⟨text, password, rfl, hkeys⟩
  | _ =>
    obtain ⟨_, -, hreply⟩ := Command.exists_of_bind_return h
    exact absurd hreply (by simp)

/-- Private keys are given away for the password of an unlocked wallet. -/
theorem exists_accepts_of_keyMap {keys : KeyMap} (hdistinct : manager.Distinct)
    (h : manager.answer world command.perform = .ok (.keyMap keys)) :
    ∃ (name : WalletName) (password : String) (wallet : SoftWallet) (session : Session),
      command = .listKeys name.text password ∧ (name, wallet) ∈ manager.wallets ∧
        manager.expires world command = false ∧ wallet.Accepts password session ∧
        keys = session.keys := by
  obtain ⟨text, password, rfl, hkeys⟩ := exists_listKeys_of_keyMap h
  obtain ⟨⟨name, wallet'⟩, session, hfind, hsession, hcheck, rfl⟩ :=
    outcome_listKeys_eq_ok_iff.1 hkeys
  obtain ⟨hmet, rfl⟩ := mem_of_find?_eq_some hfind
  have hstart : (name, wallet') ∈ ((Command.listKeys name.text password).start
      ⟨manager, world, []⟩).manager.wallets := hmet
  obtain ⟨wallet, hmem, rfl⟩ := (mem_start_iff hdistinct).1 hstart
  obtain ⟨hlasts, heq⟩ := met_eq_self hsession
  dsimp only at hsession hcheck
  rw [heq] at hsession hcheck
  obtain ⟨session', haccepts⟩ := SoftWallet.checkPassword_eq_ok_iff.1 hcheck
  obtain rfl : session' = session := Option.some.inj (haccepts.1.symm.trans hsession)
  exact ⟨name, password, wallet, session', rfl, hmem, hlasts, haccepts, rfl⟩

/-! ## What takes keys away -/

/-- A registered wallet loses a key in one of two ways, or still has it in its sealed copy, under
    the wallet key that an open session then has. -/
theorem retains_of_origin [Suite.LawfulCipher] {result : Except Error Reply} {key : Block 32}
    {pub : PublicKey} (hdistinct : manager.Distinct) (hreachable : wallet.Reachable)
    (hmem : (name, wallet) ∈ manager.wallets) (hcarries : wallet.Carries key pub)
    (hkey : ∀ session, wallet.session? = some session → session.key = key)
    (horigin : command.Origin (command.start ⟨manager, world, []⟩) result name wallet') :
    wallet.Loses name pub command result ∨
      (wallet'.Carries key pub ∧ ∀ session, wallet'.session? = some session →
        session.key = key ∨ ∃ password, command = .unlock name.text password) := by
  have hmet : ∀ {wallet₀ : SoftWallet},
      (name, wallet₀) ∈ (command.start ⟨manager, world, []⟩).manager.wallets →
      wallet₀ = manager.met world command wallet := by
    intro wallet₀ hstart
    obtain ⟨wallet₁, hmem₁, rfl⟩ := (mem_start_iff hdistinct).1 hstart
    rw [hdistinct.eq_of_mem hmem₁ hmem]
  have hknown : ¬ (command.start ⟨manager, world, []⟩).manager.isRegistered name.text = false := by
    rw [isRegistered_start hdistinct, isRegistered_of_mem hmem]
    simp
  cases horigin with
  | kept hstart =>
    obtain rfl := hmet hstart
    refine .inr ⟨hcarries.of_envelope_eq envelope?_met, fun session hsession => .inl ?_⟩
    rw [(met_eq_self hsession).2] at hsession
    exact hkey session hsession
  | locked hstart =>
    obtain rfl := hmet hstart
    exact .inr ⟨hcarries.of_envelope_eq envelope?_met, fun _ hsession => by cases hsession⟩
  | changed hstart hopen hchanges hact hpassword =>
    obtain rfl := hmet hstart
    obtain ⟨session, hsession⟩ := Option.isSome_iff_exists.1 (Option.isNone_eq_false_iff.1 hopen)
    have heq := (met_eq_self hsession).2
    rw [heq] at hsession hact hpassword
    obtain rfl := hkey session hsession
    obtain ⟨vault, hvault⟩ := hreachable.refines
    obtain ⟨envelope, -, rfl, -⟩ := hvault.eq_bound hsession
    obtain ⟨keys', hrefines, hkept⟩ := hvault.exists_of_changes hchanges hact
    rcases hkept pub ((hvault.coupled.carries_iff hsession).1 hcarries) with hpub |
      ⟨password, text, rfl, htext, rfl⟩
    · have hsession' : wallet'.session? = some ⟨session.key, keys'⟩ := hrefines.2
      refine .inr ⟨(hrefines.coupled.carries_iff hsession').2 hpub, ?_⟩
      rintro session'' hsession''
      rw [hsession'] at hsession''
      cases hsession''
      exact .inl rfl
    · obtain ⟨session', haccepts⟩ :=
        SoftWallet.checkPassword_eq_ok_iff.1 (hpassword password text rfl)
      exact .inl (.removed haccepts htext)
  | opened hload hcommand =>
    rcases hcommand with ⟨rfl, rfl⟩ | hnew
    · exact .inl .opened
    · exact absurd hnew hknown
  | unlocked hfinds hlocked hcommand hunlock hresult =>
    rcases hfinds with hstart | ⟨hnew, -⟩
    · obtain rfl := hmet hstart
      exact .inr ⟨hcarries.of_envelope_eq (hunlock.envelope?_eq.trans envelope?_met),
        fun _ _ => .inr ⟨_, hcommand⟩⟩
    · exact absurd hnew hknown
  | created hcommand hresult =>
    subst hcommand
    subst hresult
    exact .inl .created
  | owned hcommand hnew hresult => exact absurd hnew hknown

/-- Whatever command a manager of soft wallets is given, and however it ends: a wallet that is
    unlocked afterwards was unlocked before, and the timeout had not run out, or it was let in, as a
    wallet that has been created is; private keys are given away for nothing but the password of an
    unlocked wallet; and of the keys that a wallet carries, which are those of its session while it
    is unlocked, none is lost but to another wallet in its place, or to the password. -/
theorem Reachable.password_gate [Suite.LawfulCipher] (h : Reachable Command.HandsOver manager)
    (world : World) (command : Command SoftWallet) :
    (∀ name, (manager.after world command).Unlocked name →
      (manager.Unlocked name ∧ manager.expires world command = false) ∨
        manager.Admits world name command (manager.answer world command.perform)
          (manager.after world command)) ∧
    (∀ text password, command = .create text →
      manager.answer world command.perform = .ok (.password password) →
      ∃ name : WalletName, name.text = text ∧ (manager.after world command).Unlocked name) ∧
    (∀ keys, manager.answer world command.perform = .ok (.keyMap keys) →
      ∃ (name : WalletName) (password : String) (wallet : SoftWallet) (session : Session),
        command = .listKeys name.text password ∧ (name, wallet) ∈ manager.wallets ∧
          manager.expires world command = false ∧ wallet.Accepts password session ∧
          keys = session.keys) ∧
    (∀ name wallet, (name, wallet) ∈ manager.wallets →
      (∀ session, wallet.session? = some session →
        ∀ pub, wallet.Carries session.key pub ↔ pub ∈ session.keys) ∧
      ∀ key pub, wallet.Carries key pub →
        (∀ session, wallet.session? = some session → session.key = key) →
        wallet.Loses name pub command (manager.answer world command.perform) ∨
          ∃ wallet', (name, wallet') ∈ (manager.after world command).wallets ∧
            wallet'.Carries key pub ∧ ∀ session, wallet'.session? = some session →
              session.key = key ∨ ∃ password, command = .unlock name.text password) := by
  have hscene : (⟨manager, world, []⟩ : Scene SoftWallet).manager.Distinct := h.distinct
  have hstart : (command.start ⟨manager, world, []⟩).manager.Distinct :=
    Command.distinct_start hscene
  have heffect := command.effect ⟨manager, world, []⟩
  refine ⟨?_, ?_, fun keys hkeys => exists_accepts_of_keyMap h.distinct hkeys, ?_⟩
  · rintro name ⟨wallet', hmem, hopen⟩
    exact admits_of_origin h.distinct (heffect.origin hstart hmem) hmem hopen
  · rintro text password rfl hok
    exact unlocked_of_create hok
  · intro name wallet hmem
    have hreachable := h.every_reachable _ _ hmem
    obtain ⟨vault, hvault⟩ := hreachable.refines
    refine ⟨fun session hsession pub => hvault.coupled.carries_iff hsession, ?_⟩
    intro key pub hcarries hkey
    obtain ⟨wallet', hmem'⟩ :=
      heffect.exists_of_mem hstart ((mem_start_iff h.distinct).2 ⟨wallet, hmem, rfl⟩)
    rcases retains_of_origin h.distinct hreachable hmem hcarries hkey
      (heffect.origin hstart hmem') with hloses | ⟨hcarries', hkey'⟩
    · exact .inl hloses
    · exact .inr ⟨wallet', hmem', hcarries', hkey'⟩

end Manager

end

/-! ## A wrong password -/

namespace Manager

local instance gatePrimitives : Suite := Suite.plain

/-- To remove the only key of the wallet with a password that is not the wallet's. -/
def wrongRemoval : Command SoftWallet := .removeKey "w" "wrong" freshKey.publicKey.toText

/-- With a wrong password the key stays in the wallet. -/
theorem password_gate_on_wrongRemoval :
    Reachable Command.HandsOver withFreshKey ∧
      ∃ (name : WalletName) (wallet wallet' : SoftWallet) (session : Session),
        (name, wallet) ∈ withFreshKey.wallets ∧ wallet.session? = some session ∧
          freshKey.publicKey ∈ session.keys ∧
          (name, wallet') ∈ (withFreshKey.after freshWorld wrongRemoval).wallets ∧
          wallet'.Carries session.key freshKey.publicKey := by
  have hreachable : Reachable Command.HandsOver withFreshKey :=
    reachable_withEmptyWallet.command (.createKey "w" "falcon512") trivial withEmptyWallet.world
  refine ⟨hreachable, ?_⟩
  have hsigner : (withFreshKey.signer? freshKey.publicKey).isSome = true := by
    rw [signer?_withFreshKey]
    rfl
  obtain ⟨⟨name, wallet⟩, hmem, hstored⟩ := isSome_signer?_iff.1 hsigner
  obtain ⟨secret, hstored⟩ := Option.isSome_iff_exists.1 hstored
  obtain ⟨session, hsession, hget⟩ := Option.bind_eq_some_iff.1 hstored
  have hpub : freshKey.publicKey ∈ session.keys :=
    Std.ExtTreeMap.mem_iff_isSome_getElem?.2 (by rw [hget]; rfl)
  obtain ⟨-, -, -, hwallets⟩ := hreachable.password_gate freshWorld wrongRemoval
  obtain ⟨hcarries, hkeeps⟩ := hwallets name wallet hmem
  have hrefused : (withFreshKey.answer freshWorld wrongRemoval.perform).isOk = false := by
    decide +kernel
  have hkey : ∀ session', wallet.session? = some session' → session'.key = session.key := by
    intro session' hsession'
    rw [hsession] at hsession'
    cases hsession'
    rfl
  rcases hkeeps session.key _ ((hcarries session hsession _).2 hpub) hkey with
    hloses | ⟨wallet', hmem', hcarries', -⟩
  · exact absurd hloses.isOk (by simp [hrefused])
  · exact ⟨name, wallet, wallet', session, hmem, hsession, hpub, hmem', hcarries'⟩

end Manager

end Custody
