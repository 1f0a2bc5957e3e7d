import Custody.Proofs.Manager.Directory
import Custody.Proofs.Wallet.Durable

set_option autoImplicit false

/-! # No command loses a key

Of a wallet that has a file in the directory, every command leaves the file, the sealed copy and the
session with the same keys: those that were there before, changed as the command says if it succeeds
and as they were if it fails (`Command.Effect.durable`). -/

namespace Custody

variable [Suite]

/-! ## What commands do to keys -/

namespace Command

variable {W : Type}

/-- What a command makes of the keys of a wallet when it succeeds. A fresh key comes from the random
    source as it was before the command. -/
def revise (name : WalletName) (entropy : Entropy) (keys : KeyMap) : Command W → KeyMap
  | .importKey other text =>
    match PrivateKey.ofText text with
    | .ok key => if other = name.text then keys.insert key.publicKey key else keys
    | .error _ => keys
  | .createKey other selector =>
    match Manager.selectKeyType selector with
    | .ok keyType =>
      if other = name.text then SoftWallet.withFresh keys keyType entropy else keys
    | .error _ => keys
  | .removeKey other _ text =>
    match PublicKey.ofText text with
    | .ok key => if other = name.text then keys.erase key else keys
    | .error _ => keys
  | _ => keys

/-- The keys of a wallet after a command that was answered: a failure changes nothing. -/
def record (name : WalletName) (entropy : Entropy) (answer : Except Error Reply) (keys : KeyMap)
    (command : Command W) : KeyMap :=
  if answer.isOk then command.revise name entropy keys else keys

variable {command : Command W} {name : WalletName} {entropy : Entropy} {keys : KeyMap}
  {result : Except Error Reply}

theorem revise_of_onlyLooks (h : command.onlyLooks = true) :
    command.revise name entropy keys = keys := by
  cases command with
  | importKey name key => exact absurd h (by simp [onlyLooks])
  | removeKey name password key => exact absurd h (by simp [onlyLooks])
  | createKey name selector => exact absurd h (by simp [onlyLooks])
  | _ => rfl

/-- A command that succeeds only if it does no more than look changes no keys. -/
theorem record_of_quiet (h : ∀ reply, result = .ok reply → command.onlyLooks = true) :
    command.record name entropy result keys = keys := by
  unfold record
  cases result with
  | error error => rfl
  | ok reply => exact revise_of_onlyLooks (h reply rfl)

end Command

/-- A command that changes the keys of a wallet records the change in all its copies. -/
theorem SoftWallet.durable_of_changes [Suite.LawfulCipher] {dir : Path} {name : WalletName}
    {header : KdfHeader} {key : Block 32} {keys : KeyMap} {wallet : SoftWallet} {world : World}
    (h : Durable dir name.fileBytes header key keys (wallet, world)) (hwallet : wallet.Reachable)
    {command : Command SoftWallet} {request : Request} {act : Operation Reply}
    (hchanges : command.Changes name.text request act) :
    Durable dir name.fileBytes header key
      (command.record name world.entropy (act.outcome (wallet, world)).1 keys)
      (act.outcome (wallet, world)).2 := by
  have hbound := hwallet.orderly.isBound
  cases hchanges with
  | importKey hkey =>
    rw [Act.outcome_map, Command.record, Act.isOk_map]
    have hdurable := (importKey_spec _ hbound world).durable h name.isFileName
      (PrivateKey.wellFormed_of_ofText hkey)
    simp only [Command.revise, hkey, if_true]
    exact hdurable
  | @removeKey _ _ _ removed hkey =>
    rw [Act.outcome_map, Command.record, Act.isOk_map]
    have hdurable := (removeKey_spec removed hbound world).durable h name.isFileName
    simp only [Command.revise, hkey, if_true]
    exact hdurable
  | @createKey _ _ keyType hkey =>
    rw [Act.outcome_map, Command.record, Act.isOk_map]
    have hdurable := (createKey_spec keyType hbound world).durable h name.isFileName
    simp only [Command.revise, hkey, if_true]
    exact hdurable

/-- A command about another wallet changes nothing in this one. -/
theorem Command.record_of_changes {W : Type} [SoftBackend W] {command : Command W} {text : String}
    {request : Request} {act : Act Error (W × World) Reply} {name : WalletName} {entropy : Entropy}
    {keys : KeyMap} (result : Except Error Reply) (hchanges : command.Changes text request act)
    (hne : text ≠ name.text) : command.record name entropy result keys = keys := by
  unfold record
  split
  · cases hchanges with
    | importKey hkey => simp only [revise, hkey, if_neg hne]
    | removeKey hkey => simp only [revise, hkey, if_neg hne]
    | createKey hkey => simp only [revise, hkey, if_neg hne]
  · rfl

/-! ## Managers and the file of a wallet -/

/-- The manager is settled in a directory, and the wallet of a name is durable: its file holds the
    keys, and so does the wallet whenever it is registered. -/
structure Manager.Durable (dir : Path) (name : WalletName) (header : KdfHeader) (key : Block 32)
    (keys : KeyMap) (manager : Manager SoftWallet) (disk : Disk) : Prop where
  settled : manager.Settled dir
  every : manager.Every fun other wallet => other = name →
    ∃ isLocked, wallet.Refines (.bound isLocked header key keys)
  stores : disk.Stores (dir.join ⟨name.fileBytes⟩) header key keys

namespace Manager

variable {dir : Path} {name other : WalletName} {header : KdfHeader} {key : Block 32}
  {keys : KeyMap} {manager : Manager SoftWallet} {disk disk' : Disk} {wallet : SoftWallet}
  {scene scene' : Scene SoftWallet} {world : World}

theorem lock_refined (other : WalletName) (wallet : SoftWallet)
    (h : other = name → ∃ isLocked, wallet.Refines (.bound isLocked header key keys)) :
    other = name → ∃ isLocked, (Backend.lock wallet).Refines (.bound isLocked header key keys) := by
  intro hname
  obtain ⟨isLocked, hrefines⟩ := h hname
  exact ⟨true, hrefines.lock⟩

/-- Nothing but the manager's timeout has changed, and the file is still there. -/
theorem Durable.of_wallets_eq (h : Durable dir name header key keys manager disk)
    {manager' : Manager SoftWallet} (hsettled : manager'.Settled dir)
    (hwallets : manager'.wallets = manager.wallets)
    (hspares : Disk.Spares (dir.join ⟨name.fileBytes⟩) disk disk') :
    Durable dir name header key keys manager' disk' := by
  refine ⟨hsettled, ?_, h.stores.of_spares hspares⟩
  unfold Manager.Every
  rw [hwallets]
  exact h.every

theorem Durable.start (h : Durable dir name header key keys scene.manager scene.world.disk)
    (command : Command SoftWallet) :
    Durable dir name header key keys (command.start scene).manager
      (command.start scene).world.disk := by
  rw [Command.world_start h.settled.distinct]
  exact ⟨h.settled.start command, h.every.start lock_refined command, h.stores⟩

/-- The wallet of a file has been opened, and loading has left the disk alone. -/
theorem Durable.opened (h : Durable dir name header key keys scene.manager scene.world.disk)
    (hopened : scene.Opened other wallet scene') :
    Durable dir name header key keys scene'.manager scene'.world.disk := by
  obtain ⟨envelope, hload, rfl⟩ := hopened.loaded
  have hsettled := h.settled.opened hopened
  rw [hopened.manager_eq] at hsettled ⊢
  rw [(Envelope.load_spec hload).1]
  refine ⟨hsettled, h.every.registered ?_, h.stores⟩
  rintro rfl
  rw [h.settled.walletPath_eq] at hload
  exact ⟨true, ⟨envelope, rfl, h.stores.holds_of_load hload⟩, rfl⟩

/-- Another wallet has been changed. -/
theorem Durable.replace_other (h : Durable dir name header key keys manager disk)
    (hsettled : (manager.replace other wallet).Settled dir) (hne : other ≠ name)
    (hspares : Disk.Spares (dir.join ⟨name.fileBytes⟩) disk disk') :
    Durable dir name header key keys (manager.replace other wallet) disk' :=
  ⟨hsettled, h.every.replace fun hname => absurd hname hne, h.stores.of_spares hspares⟩

/-- The wallet itself has been changed, and its file with it. -/
theorem Durable.replace {wallet₀ : SoftWallet} (hmem : (name, wallet₀) ∈ manager.wallets)
    (hsettled : (manager.replace name wallet).Settled dir)
    (hdurable : SoftWallet.Durable dir name.fileBytes header key keys (wallet, world)) :
    Durable dir name header key keys (manager.replace name wallet) world.disk := by
  refine ⟨hsettled, ?_, hdurable.stores⟩
  intro other x hx hname
  rcases (mem_replace hmem other x).1 hx with ⟨-, rfl⟩ | ⟨hne, -⟩
  · exact hdurable.refines
  · exact absurd hname hne

/-- A registered wallet is durable. -/
theorem Durable.of_mem (h : Durable dir name header key keys manager world.disk)
    (hmem : (name, wallet) ∈ manager.wallets) :
    SoftWallet.Durable dir name.fileBytes header key keys (wallet, world) :=
  ⟨(h.settled.every _ _ hmem).2, h.every _ _ hmem rfl, h.stores⟩

/-- Keys have been added to the wallet of an entry or taken away from it, or that has failed. -/
theorem Durable.changed [Suite.LawfulCipher] {world' : World}
    (h : Durable dir name header key keys manager world.disk) {command : Command SoftWallet}
    {text : String} {request : Request} {act : SoftWallet.Operation Reply}
    (hchanges : command.Changes text request act) {entry : WalletName × SoftWallet}
    (hfind : manager.find? text = some entry) {result : Except Error Reply}
    (hact : act.outcome (entry.2, world) = (result, wallet, world'))
    (hsettled : (manager.replace entry.1 wallet).Settled dir) :
    Durable dir name header key (command.record name world.entropy result keys)
      (manager.replace entry.1 wallet) world'.disk := by
  obtain ⟨hentry, htext⟩ := mem_of_find?_eq_some hfind
  obtain ⟨hreachable, hpath⟩ := h.settled.every _ _ hentry
  obtain ⟨entryName, wallet₀⟩ := entry
  by_cases hname : entryName = name
  · subst hname
    subst htext
    have hdurable := SoftWallet.durable_of_changes (h.of_mem hentry) hreachable hchanges
    rw [hact] at hdurable
    exact Durable.replace hentry hsettled hdurable
  · -- the keys on record are those of another wallet, of which only the file could be in question
    have hother : text ≠ name.text := by
      rintro rfl
      exact hname (WalletName.eq_of_text_eq htext)
    have hsaves := SoftWallet.onlySaves_of_changes hchanges wallet₀ world hreachable
    rw [hact] at hsaves
    rw [Command.record_of_changes result hchanges hother]
    exact h.replace_other hsettled hname (hsaves.confined.spares_other hpath hname)

/-- The wallet of an entry has been unlocked, or that has failed. If it is the wallet of the name,
    it is open under the wallet key that it is bound to. -/
theorem Durable.unlocked {world' : World}
    (h : Durable dir name header key keys manager world.disk) {text password : String}
    {entry : WalletName × SoftWallet} (hfind : manager.find? text = some entry)
    {result : Except Error Unit}
    (hact : (SoftWallet.unlock password).outcome (entry.2, world) = (result, wallet, world'))
    (hsettled : (manager.replace entry.1 wallet).Settled dir)
    (hopens : text = name.text → result = .ok () →
      ∀ other, header.deriveKey password = .ok other → other = key) :
    Durable dir name header key keys (manager.replace entry.1 wallet) world'.disk := by
  obtain ⟨hentry, htext⟩ := mem_of_find?_eq_some hfind
  obtain ⟨entryName, wallet₀⟩ := entry
  have hunlocking := SoftWallet.unlock_spec password wallet₀ world
  rw [hact] at hunlocking
  by_cases hname : entryName = name
  · subst hname
    exact Durable.replace hentry hsettled
      (hunlocking.durable (h.of_mem hentry) (hopens htext.symm))
  · have hpath := (h.settled.every _ _ hentry).2
    exact h.replace_other hsettled hname (hunlocking.saves.confined.spares_other hpath hname)

end Manager

/-! ## Every command -/

namespace Command

variable {command : Command SoftWallet} {dir : Path} {name : WalletName} {header : KdfHeader}
  {key : Block 32} {keys : KeyMap} {scene scene' : Scene SoftWallet} {result : Except Error Reply}

/-- Preparing a wallet leaves the file of another one alone, however far it gets. -/
theorem spares_of_prepared {other : WalletName} {password : String}
    {prepared : Except Error SoftWallet} {world : World} (hsettled : scene.manager.Settled dir)
    (hprepared : scene.Prepared other password prepared world) (hne : other ≠ name) :
    Disk.Spares (dir.join ⟨name.fileBytes⟩) scene.world.disk world.disk := by
  obtain ⟨wallet, hsaves, -⟩ := hprepared.saves
  exact hsaves.confined.spares_other (hsettled.walletPath_eq other) hne

/-- The file of a wallet is found where it is looked for, unless looking fails. -/
theorem not_prepared (h : scene.manager.Durable dir name header key keys scene.world.disk)
    (hlooks : scene.world.faults scene.world.steps .inspect = none) {password : String}
    {prepared : Except Error SoftWallet} {world : World} :
    ¬ scene.Prepared name password prepared world := by
  intro hprepared
  obtain ⟨file, envelope, hfile, -⟩ := h.stores
  have habsent := hprepared.absent
  rw [World.outcome_observe, hlooks, h.settled.walletPath_eq, hfile] at habsent
  exact absurd habsent (by simp)

/-- Whatever a command does, all copies of a wallet hold the keys on record afterwards. Of what is
    outside of the code this takes that a wallet to be made is really looked for, and that no
    password lets in by another wallet key than the one the wallet is bound to. -/
theorem Effect.durable [Suite.LawfulCipher] (heffect : Effect command scene result scene')
    (hput : command.staysPut = true)
    (h : scene.manager.Durable dir name header key keys scene.world.disk)
    (hlooks : command = .create name.text →
      scene.world.faults scene.world.steps .inspect = none)
    (hopens : ∀ password, command = .unlock name.text password → result.isOk = true →
      ∀ other, header.deriveKey password = .ok other → other = key) :
    scene'.manager.Durable dir name header key
      (command.record name scene.world.entropy result keys) scene'.world.disk := by
  have hsettled := heffect.settled hput h.settled
  cases heffect with
  | looked hsaw hchecked hquiet =>
    rw [record_of_quiet hquiet]
    exact h.of_wallets_eq hsettled (by rw [hsaw.manager_eq]) (.of_eq hsaw.drew.disk_eq)
  | idle hquiet =>
    rw [record_of_quiet hquiet]
    exact h
  | @locked _ _ entry hopen =>
    have hentry := (Manager.mem_of_find?_eq_some hopen.1).1
    exact ⟨hsettled, h.every.afterLocking Manager.lock_refined (h.every _ _ hentry), h.stores⟩
  | lockedAll =>
    refine ⟨hsettled, h.every.lockedAll Manager.lock_refined, ?_⟩
    rw [Scene.lockedAll_eq h.settled.distinct]
    exact h.stores
  | timeoutSet hset => exact h.of_wallets_eq hsettled rfl (.of_eq rfl)
  | timeoutDisabled => exact h.of_wallets_eq hsettled rfl (.of_eq rfl)
  | @changed _ _ scene₁ _ _ _ entry result wallet world hchanges hopen hsaw hworld hact =>
    change (scene₁.manager.replace entry.1 wallet).Settled dir at hsettled
    show (scene₁.manager.replace entry.1 wallet).Durable dir name header key _ world.disk
    rw [hsaw.manager_eq] at hsettled ⊢
    exact h.changed hchanges hopen.1 hact hsettled
  | opened hopened => exact h.opened hopened
  | openFailed hcommand hload =>
    exact h.of_wallets_eq hsettled rfl (.of_eq (Manager.disk_eq_of_load hload))
  | @unlocked _ scene₁ scene₂ text password entry result wallet world hopened hsaw hfind hlocked
      hact =>
    have hrecord : record name scene.world.entropy result keys
        (.unlock text password : Command SoftWallet) = keys := by
      unfold record
      split <;> rfl
    -- an unregistered wallet has been opened from its file on the way
    have h₁ : scene₁.manager.Durable dir name header key keys scene₁.world.disk := by
      rcases hopened with rfl | ⟨other, wallet', -, hopened⟩
      · exact h
      · exact h.opened hopened
    change (scene₂.manager.replace entry.1 wallet).Settled dir at hsettled
    show (scene₂.manager.replace entry.1 wallet).Durable dir name header key _ world.disk
    rw [hrecord]
    rw [hsaw.manager_eq] at hsettled ⊢
    rw [← hsaw.drew.disk_eq] at h₁
    obtain ⟨answer, hdone, rfl⟩ := Act.exists_of_outcome_map hact
    refine h₁.unlocked hfind hdone hsettled ?_
    rintro rfl rfl
    exact hopens password rfl rfl
  | unlockRefused hopened hsaw =>
    exact (h.opened hopened).of_wallets_eq hsettled (by rw [hsaw.manager_eq])
      (.of_eq hsaw.drew.disk_eq)
  | @created _ other password wallet world hprepared =>
    have hne : other ≠ name := by
      rintro rfl
      exact not_prepared h (hlooks rfl) hprepared
    exact ⟨hsettled, h.every.registered fun hname => absurd hname hne,
      h.stores.of_spares (spares_of_prepared h.settled hprepared hne)⟩
  | @createFailed _ other _ _ world hprepared =>
    have hne : other ≠ name := by
      rintro rfl
      exact not_prepared h (hlooks rfl) hprepared
    exact h.of_wallets_eq hsettled rfl (spares_of_prepared h.settled hprepared hne)
  | createRefused hdisk hfaults => exact h.of_wallets_eq hsettled rfl (.of_eq hdisk)
  -- what is left moves the manager to another directory or gives it wallets of its own
  | owned howns hnew => rcases howns with rfl | ⟨-, rfl⟩ <;> exact absurd hput (by simp [staysPut])
  | moved => exact absurd hput (by simp [staysPut])
  | directoryLocked => exact absurd hput (by simp [staysPut])
  | directoryFailed hcommand =>
    rcases hcommand with rfl | ⟨dir, rfl⟩ <;> exact absurd hput (by simp [staysPut])

/-- A wallet that has been created is durable and empty, and its password derives its key. -/
theorem Effect.durable_of_create [Suite.LawfulCipher] {password : String}
    (heffect : Effect (.create name.text) scene (.ok (.password password)) scene')
    (hsettled : scene.manager.Settled dir) : ∃ header key, header.deriveKey password = .ok key ∧
      scene'.manager.Durable dir name header key ∅ scene'.world.disk := by
  have hsettled' := heffect.settled rfl hsettled
  generalize hcommand : (Command.create name.text : Command SoftWallet) = command at heffect
  generalize hresult : (Except.ok (.password password) : Except Error Reply) = result at heffect
  cases heffect with
  | looked hsaw hchecked hquiet =>
    subst hcommand
    exact absurd (hquiet _ hresult.symm) (by simp [onlyLooks])
  | idle hquiet =>
    subst hcommand
    exact absurd (hquiet _ hresult.symm) (by simp [onlyLooks])
  | changed hchanges hopen hsaw hworld hact => cases hchanges <;> exact absurd hcommand (by simp)
  | owned howns hnew =>
    rcases howns with rfl | ⟨-, rfl⟩ <;> exact absurd hcommand (by simp)
  | @created _ other password' wallet world hprepared =>
    obtain rfl : other = name := WalletName.eq_of_text_eq (Command.create.inj hcommand).symm
    cases hresult
    obtain ⟨world₁, -, -, hprepare⟩ := hprepared.prepare
    rw [hsettled.walletPath_eq] at hprepare
    obtain ⟨header, key, hkey, hdurable⟩ :=
      SoftWallet.durable_prepareNew other.isFileName hprepare
    refine ⟨header, key, hkey, hsettled', ?_, hdurable.stores⟩
    intro name' x hmem hname
    rcases (Manager.mem_registered name' x).1 hmem with ⟨-, rfl⟩ | ⟨hne, -⟩
    · exact hdurable.refines
    · exact absurd hname hne
  | openFailed hfailed hload => exact absurd hresult (by simp)
  | createFailed hprepared => exact absurd hresult (by simp)
  | createRefused hdisk hfaults => exact absurd hresult (by simp)
  | directoryFailed hfailed => exact absurd hresult (by simp)
  | _ => exact absurd hcommand (by simp)

end Command

end Custody
