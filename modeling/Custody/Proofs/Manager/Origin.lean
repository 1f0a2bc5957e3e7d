import Custody.Proofs.Manager.Soft

set_option autoImplicit false

/-! # Where the wallets of a registry come from

`Command.Origin` says of each wallet that is registered after a command what it was made of, and
under which guards: most often a wallet of the same name, as it was, locked, or changed by one
operation. `Command.Effect.origin` shows that there is no other way into a registry, and
`Command.Effect.exists_of_mem` that there is none out of it: a name that is registered stays
registered. -/

namespace Custody

variable [Suite]

/-! ## Locking soft wallets -/

/-- Locking a soft wallet that may be locked is closing its session. -/
theorem Manager.locked_eq_lock (wallet : SoftWallet) : Manager.locked wallet = wallet.lock := by
  unfold Manager.locked
  split
  · rename_i hlocked
    exact (SoftWallet.lock_eq_self (Option.isNone_iff_eq_none.1 hlocked)).symm
  · rfl

namespace Manager

variable {manager : Manager SoftWallet} {name : WalletName} {wallet : SoftWallet}

/-- What unlocking a name works on: the wallet that is registered, or else the one of the file. -/
def Finds (manager : Manager SoftWallet) (world : World) (name : WalletName)
    (wallet : SoftWallet) : Prop :=
  (name, wallet) ∈ manager.wallets ∨
    (manager.isRegistered name.text = false ∧ ∃ envelope,
      ((Envelope.load (manager.walletPath name)).outcome world).1 = .ok envelope ∧
      wallet = ⟨manager.walletPath name, manager.cost, some envelope, none⟩)

omit [Suite] in
/-- A wallet that is put in a place of the registry leaves the names as they are. -/
theorem exists_mem_replace (other : WalletName) (wallet' : SoftWallet)
    (h : (name, wallet) ∈ manager.wallets) :
    ∃ wallet'', (name, wallet'') ∈ (manager.replace other wallet').wallets := by
  have hname : name ∈ (manager.replace other wallet').names := by
    rw [names_replace]
    exact List.mem_map_of_mem h
  obtain ⟨⟨_, wallet''⟩, hmem, rfl⟩ := List.mem_map.1 hname
  exact ⟨wallet'', hmem⟩

omit [Suite] in
/-- A wallet that is registered may take the place of another one, but its name stays. -/
theorem exists_mem_registered (other : WalletName) (wallet' : SoftWallet)
    (h : (name, wallet) ∈ manager.wallets) :
    ∃ wallet'', (name, wallet'') ∈ (manager.registered other wallet').wallets := by
  by_cases hname : name = other
  · exact ⟨wallet', (mem_registered _ _).2 (.inl ⟨hname, rfl⟩)⟩
  · exact ⟨wallet, (mem_registered _ _).2 (.inr ⟨hname, h⟩)⟩

end Manager

namespace Command

/-! ## Origins -/

/-- What a wallet that is registered after a command was made of. -/
inductive Origin (command : Command SoftWallet) (scene : Scene SoftWallet)
    (result : Except Error Reply) (name : WalletName) : SoftWallet → Prop
  | kept {wallet : SoftWallet} (hmem : (name, wallet) ∈ scene.manager.wallets) :
    Origin command scene result name wallet
  | locked {wallet : SoftWallet} (hmem : (name, wallet) ∈ scene.manager.wallets) :
    Origin command scene result name wallet.lock
  | changed {request : Request} {act : SoftWallet.Operation Reply} {wallet wallet' : SoftWallet}
    {world : World} (hmem : (name, wallet) ∈ scene.manager.wallets)
    (hopen : wallet.isLocked = false) (hchanges : command.Changes name.text request act)
    (hact : act.outcome (wallet, scene.world) = (result, wallet', world))
    (hpassword : ∀ password text, command = .removeKey name.text password text →
      wallet.checkPassword password = .ok ()) :
    Origin command scene result name wallet'
  | opened {envelope : Envelope}
    (hload : ((Envelope.load (scene.manager.walletPath name)).outcome scene.world).1 =
      .ok envelope)
    (hcommand : (command = .openWallet name.text ∧ result = .ok .done) ∨
      scene.manager.isRegistered name.text = false) :
    Origin command scene result name
      ⟨scene.manager.walletPath name, scene.manager.cost, some envelope, none⟩
  | unlocked {password : String} {wallet wallet' : SoftWallet} {world world' : World}
    {answer : Except Error Unit} (hfinds : scene.manager.Finds scene.world name wallet)
    (hlocked : wallet.session? = none) (hcommand : command = .unlock name.text password)
    (hunlock : SoftWallet.Unlocking password wallet world (answer, wallet', world'))
    (hresult : result = answer.map fun _ => .done) :
    Origin command scene result name wallet'
  | created {password : String} {wallet : SoftWallet} (hcommand : command = .create name.text)
    (hresult : result = .ok (.password password)) : Origin command scene result name wallet
  | owned {wallet : SoftWallet} {reply : Reply}
    (hcommand : command = .own name.text wallet ∨
      name.text = Manager.platformName ∧ command = .registerPlatform (.ok wallet))
    (hnew : scene.manager.isRegistered name.text = false) (hresult : result = .ok reply) :
    Origin command scene result name wallet

namespace Effect

variable {command : Command SoftWallet} {scene scene₁ scene' : Scene SoftWallet}
  {result : Except Error Reply} {name : WalletName} {wallet : SoftWallet}

/-- The entry that an opened wallet is unlocked from is what was to be found under its name, and
    all others are as before. -/
theorem finds_of_opened {text : String} {entry : WalletName × SoftWallet}
    (hopened : scene₁ = scene ∨ ∃ other opened, other.text = text ∧
      scene.Opened other opened scene₁)
    (hregistered : scene.manager.isRegistered text = true → scene₁ = scene)
    (hfind : scene₁.manager.find? text = some entry) :
    scene.manager.Finds scene.world entry.1 entry.2 ∧ ∀ other wallet, other ≠ entry.1 →
      (other, wallet) ∈ scene₁.manager.wallets → (other, wallet) ∈ scene.manager.wallets := by
  obtain ⟨hentry, htext⟩ := Manager.mem_of_find?_eq_some hfind
  by_cases hknown : scene.manager.isRegistered text = true
  · rw [hregistered hknown] at hentry ⊢
    exact ⟨.inl hentry, fun _ _ _ hmem => hmem⟩
  · rcases hopened with rfl | ⟨other, opened, rfl, hopened⟩
    · refine absurd ?_ hknown
      rw [← htext]
      exact Manager.isRegistered_of_mem hentry
    · obtain ⟨name, wallet⟩ := entry
      obtain rfl : name = other := WalletName.eq_of_text_eq htext
      obtain ⟨envelope, hload, rfl⟩ := hopened.loaded
      rw [hopened.manager_eq] at hentry ⊢
      refine ⟨.inr ⟨Bool.eq_false_iff.2 hknown, envelope, congrArg Prod.fst hload, ?_⟩, ?_⟩
      · rcases (Manager.mem_registered _ _).1 hentry with ⟨-, hwallet⟩ | ⟨hne, -⟩
        · exact hwallet
        · exact absurd rfl hne
      · intro other wallet' hne hmem
        rcases (Manager.mem_registered _ _).1 hmem with ⟨heq, -⟩ | ⟨-, hmem⟩
        · exact absurd heq hne
        · exact hmem

/-- Every wallet that is registered after a command has one of these origins. -/
theorem origin (heffect : Effect command scene result scene') (hdistinct : scene.manager.Distinct)
    (hmem : (name, wallet) ∈ scene'.manager.wallets) : command.Origin scene result name wallet := by
  cases heffect with
  | looked hsaw => exact .kept (hsaw.manager_eq ▸ hmem)
  | @locked _ text entry hopen =>
    have hentry := (Manager.mem_of_find?_eq_some hopen.1).1
    rcases scene.afterLocking_manager entry with heq | heq
    · exact .kept (heq ▸ hmem)
    · rw [heq] at hmem
      rcases (Manager.mem_replace hentry _ _).1 hmem with ⟨rfl, rfl⟩ | ⟨-, hmem⟩
      · exact .locked hentry
      · exact .kept hmem
  | lockedAll =>
    rw [Scene.lockedAll_eq hdistinct] at hmem
    obtain ⟨⟨other, wallet₀⟩, hentry, heq⟩ := List.mem_map.1 hmem
    obtain ⟨rfl, rfl⟩ := Prod.mk.inj heq
    rw [Manager.locked_eq_lock]
    exact .locked hentry
  | @changed _ _ scene₁ text request act entry _ wallet' world hchanges hopen hsaw hworld hact
      hpassword =>
    obtain ⟨hentry, rfl⟩ := Manager.mem_of_find?_eq_some hopen.1
    change (name, wallet) ∈ (scene₁.manager.replace entry.1 wallet').wallets at hmem
    rw [hsaw.manager_eq] at hmem
    rcases (Manager.mem_replace hentry _ _).1 hmem with ⟨rfl, rfl⟩ | ⟨-, hmem⟩
    · exact .changed hentry hopen.2 hchanges hact hpassword
    · exact .kept hmem
  | @opened _ _ other wallet' hopened =>
    obtain ⟨envelope, hload, rfl⟩ := hopened.loaded
    rw [hopened.manager_eq] at hmem
    rcases (Manager.mem_registered _ _).1 hmem with ⟨rfl, rfl⟩ | ⟨-, hmem⟩
    · exact .opened (congrArg Prod.fst hload) (.inl ⟨rfl, rfl⟩)
    · exact .kept hmem
  | @unlocked _ scene₁ scene₂ text password entry _ wallet' world hopened hsaw hfind hlocked hact
      hregistered =>
    obtain ⟨hentry, htext⟩ := Manager.mem_of_find?_eq_some hfind
    obtain ⟨hfinds, hothers⟩ := finds_of_opened hopened hregistered hfind
    change (name, wallet) ∈ (scene₂.manager.replace entry.1 wallet').wallets at hmem
    rw [hsaw.manager_eq] at hmem
    rcases (Manager.mem_replace hentry _ _).1 hmem with ⟨rfl, rfl⟩ | ⟨hne, hmem⟩
    · subst htext
      have hunlock := SoftWallet.unlock_spec password entry.2 scene₂.world
      change ((fun _ => Reply.done) <$> SoftWallet.unlock password).outcome
        (entry.2, scene₂.world) = _ at hact
      obtain ⟨answer, hdone, rfl⟩ := Act.exists_of_outcome_map hact
      rw [hdone] at hunlock
      exact .unlocked hfinds (Option.isNone_iff_eq_none.1 hlocked) rfl hunlock rfl
    · exact .kept (hothers _ _ hne hmem)
  | @unlockRefused _ scene₁ _ other wallet' _ _ hopened hsaw hnew =>
    obtain ⟨envelope, hload, rfl⟩ := hopened.loaded
    rw [hsaw.manager_eq, hopened.manager_eq] at hmem
    rcases (Manager.mem_registered _ _).1 hmem with ⟨rfl, rfl⟩ | ⟨-, hmem⟩
    · exact .opened (congrArg Prod.fst hload) (.inr hnew)
    · exact .kept hmem
  | created hprepared =>
    rcases (Manager.mem_registered _ _).1 hmem with ⟨rfl, rfl⟩ | ⟨-, hmem⟩
    · exact .created rfl rfl
    · exact .kept hmem
  | owned howns hnew =>
    rcases List.mem_append.1 hmem with hmem | hmem
    · exact .kept hmem
    · cases List.mem_singleton.1 hmem
      exact .owned howns hnew rfl
  | _ => exact .kept hmem

/-- A name that is registered stays registered. -/
theorem exists_of_mem (heffect : Effect command scene result scene')
    (hdistinct : scene.manager.Distinct) (hmem : (name, wallet) ∈ scene.manager.wallets) :
    ∃ wallet', (name, wallet') ∈ scene'.manager.wallets := by
  cases heffect with
  | looked hsaw => exact ⟨wallet, hsaw.manager_eq ▸ hmem⟩
  | @locked _ _ entry hopen =>
    rcases scene.afterLocking_manager entry with heq | heq
    · exact ⟨wallet, heq ▸ hmem⟩
    · rw [heq]
      exact Manager.exists_mem_replace _ _ hmem
  | lockedAll =>
    rw [Scene.lockedAll_eq hdistinct]
    exact ⟨_, List.mem_map.2 ⟨_, hmem, rfl⟩⟩
  | @changed _ _ scene₁ _ _ _ entry _ wallet' _ hchanges hopen hsaw =>
    show ∃ wallet'', (name, wallet'') ∈ (scene₁.manager.replace entry.1 wallet').wallets
    rw [hsaw.manager_eq]
    exact Manager.exists_mem_replace _ _ hmem
  | opened hopened =>
    rw [hopened.manager_eq]
    exact Manager.exists_mem_registered _ _ hmem
  | @unlocked _ scene₁ scene₂ _ _ entry _ wallet' _ hopened hsaw =>
    show ∃ wallet'', (name, wallet'') ∈ (scene₂.manager.replace entry.1 wallet').wallets
    rw [hsaw.manager_eq]
    rcases hopened with rfl | ⟨other, opened, -, hopened⟩
    · exact Manager.exists_mem_replace _ _ hmem
    · rw [hopened.manager_eq]
      obtain ⟨wallet₁, hmem₁⟩ := Manager.exists_mem_registered other opened hmem
      exact Manager.exists_mem_replace _ _ hmem₁
  | unlockRefused hopened hsaw =>
    rw [hsaw.manager_eq, hopened.manager_eq]
    exact Manager.exists_mem_registered _ _ hmem
  | created hprepared => exact Manager.exists_mem_registered _ _ hmem
  | owned howns hnew => exact ⟨wallet, List.mem_append_left _ hmem⟩
  | _ => exact ⟨wallet, hmem⟩

end Effect

end Command

end Custody
