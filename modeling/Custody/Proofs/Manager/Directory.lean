import Custody.Proofs.Wallet.Files

set_option autoImplicit false

/-! # Managers that stay in their directory

As long as a manager is not moved to another directory and is handed no wallet from outside, each of
its wallets is a soft wallet that lies in the directory, at the path of its own name
(`Manager.Placed`), and a command touches no file but those of the wallet that it makes or whose keys
it changes: `Command.Effect.staysIn`. A manager without a lock stays so, too, until it is told to lock
its directory: `Manager.Settled`, kept by every such command (`Command.Effect.settled`). -/

namespace Custody

namespace Command

variable {W : Type}

/-- Commands other than those that change the directory of a manager, lock it, or hand a wallet
    over. -/
def staysPut : Command W → Bool
  | .own .. | .registerPlatform _ | .setDir _ | .initializeLock => false
  | _ => true

/-- Commands that neither change the directory of a manager nor hand a wallet over. -/
def isConfined : Command W → Bool
  | .own .. | .registerPlatform (.ok _) | .setDir _ => false
  | _ => true

/-- The text that names the wallet which a command makes or whose keys it changes. -/
def mutated? : Command W → Option String
  | .create text | .importKey text _ | .removeKey text .. | .createKey text _ => some text
  | _ => none

/-- The names of the files that a command may touch: those of the wallet that it makes or whose keys
    it changes, and the marker if it locks the directory. A text that is no name stands for none. -/
def Touches (command : Command W) (last : Bytes) : Prop :=
  (∃ name : WalletName, command.mutated? = some name.text ∧
    Envelope.IsOwnName name.fileBytes last) ∨
  (command = .initializeLock ∧ last = DirectoryLock.markerName)

theorem touches_of_mutated {command : Command W} {name : WalletName}
    (h : command.mutated? = some name.text) (last : Bytes)
    (hown : Envelope.IsOwnName name.fileBytes last) : command.Touches last :=
  .inl ⟨name, h, hown⟩

end Command

variable [Suite]

/-- The manager works in the directory, with the lock if any, and its wallets are soft wallets of the
    files there. -/
structure Manager.Placed (manager : Manager SoftWallet) (dir : Path)
    (lock? : Option DirectoryLock) : Prop where
  dir_eq : manager.dir = dir
  dirLock_eq : manager.dirLock = lock?
  distinct : manager.Distinct
  every : manager.Every fun name wallet =>
    wallet.Reachable ∧ wallet.path = dir.join ⟨name.fileBytes⟩

/-- The manager works in the directory without a lock, and its wallets are soft wallets of the files
    there. -/
structure Manager.Settled (manager : Manager SoftWallet) (dir : Path) : Prop where
  dir_eq : manager.dir = dir
  dirLock_eq : manager.dirLock = none
  distinct : manager.Distinct
  every : manager.Every fun name wallet =>
    wallet.Reachable ∧ wallet.path = dir.join ⟨name.fileBytes⟩

/-- The manager is still placed in the directory, and of the disk nothing has been touched but files
    of some names there. -/
structure Scene.StaysIn (dir : Path) (lock? : Option DirectoryLock) (touched : Bytes → Prop)
    (scene scene' : Scene SoftWallet) : Prop where
  placed : scene'.manager.Placed dir lock?
  within : Disk.Within dir touched scene.world.disk scene'.world.disk

namespace Manager

variable {manager : Manager SoftWallet} {dir : Path} {lock? : Option DirectoryLock}
  {name : WalletName} {wallet : SoftWallet} {scene scene₁ scene' : Scene SoftWallet}
  {touched : Bytes → Prop}

theorem settled_iff : manager.Settled dir ↔ manager.Placed dir none :=
  ⟨fun h => ⟨h.dir_eq, h.dirLock_eq, h.distinct, h.every⟩,
    fun h => ⟨h.dir_eq, h.dirLock_eq, h.distinct, h.every⟩⟩

/-! ## Wallets put in place -/

namespace Placed

theorem walletPath_eq (h : manager.Placed dir lock?) (name : WalletName) :
    manager.walletPath name = dir.join ⟨name.fileBytes⟩ := by
  rw [walletPath, h.dir_eq]
  rfl

theorem replace (h : manager.Placed dir lock?) (hreachable : wallet.Reachable)
    (hpath : wallet.path = dir.join ⟨name.fileBytes⟩) :
    (manager.replace name wallet).Placed dir lock? :=
  ⟨h.dir_eq, h.dirLock_eq, h.distinct.replace, h.every.replace ⟨hreachable, hpath⟩⟩

theorem registered (h : manager.Placed dir lock?) (hreachable : wallet.Reachable)
    (hpath : wallet.path = dir.join ⟨name.fileBytes⟩) :
    (manager.registered name wallet).Placed dir lock? :=
  ⟨h.dir_eq, h.dirLock_eq, h.distinct.registered, h.every.registered ⟨hreachable, hpath⟩⟩

end Placed

theorem lock_kept {dir : Path} (name : WalletName) (wallet : SoftWallet)
    (h : wallet.Reachable ∧ wallet.path = dir.join ⟨name.fileBytes⟩) :
    (Backend.lock wallet).Reachable ∧ (Backend.lock wallet).path = dir.join ⟨name.fileBytes⟩ :=
  ⟨h.1.lock, h.2⟩

namespace Placed

theorem afterLocking (h : scene.manager.Placed dir lock?) {entry : WalletName × SoftWallet}
    (hentry : entry ∈ scene.manager.wallets) :
    (scene.afterLocking entry).manager.Placed dir lock? := by
  have hwallet := h.every entry.1 entry.2 hentry
  rcases scene.afterLocking_manager entry with heq | heq
  · rw [heq]
    exact h
  · rw [heq]
    exact h.replace hwallet.1.lock hwallet.2

theorem lockedAll (h : scene.manager.Placed dir lock?) :
    scene.lockedAll.manager.Placed dir lock? := by
  have hevery := h.every.lockedAll lock_kept
  have hdistinct := Scene.distinct_lockedAll h.distinct
  rw [Scene.lockedAll_eq h.distinct] at hevery hdistinct ⊢
  exact ⟨h.dir_eq, h.dirLock_eq, hdistinct, hevery⟩

theorem checked (h : scene.manager.Placed dir lock?) :
    scene.checked.manager.Placed dir lock? := by
  unfold Scene.checked
  dsimp only
  split
  · exact Placed.lockedAll ⟨h.dir_eq, h.dirLock_eq, h.distinct, h.every⟩
  · exact ⟨h.dir_eq, h.dirLock_eq, h.distinct, h.every⟩

theorem start (h : scene.manager.Placed dir lock?) (command : Command SoftWallet) :
    (command.start scene).manager.Placed dir lock? := by
  unfold Command.start
  split
  · exact h.checked
  · exact h

theorem opened (h : scene.manager.Placed dir lock?) (hopened : scene.Opened name wallet scene') :
    scene'.manager.Placed dir lock? := by
  have hreachable := SoftWallet.Leads.preparing (.of_step .load rfl) hopened.load
  obtain ⟨envelope, -, rfl⟩ := hopened.loaded
  rw [hopened.manager_eq]
  exact h.registered hreachable (h.walletPath_eq name)

end Placed

/-! ## What is done to the disk -/

theorem Placed.staysIn_of_disk_eq (h : scene'.manager.Placed dir lock?)
    (hdisk : scene'.world.disk = scene.world.disk) : scene.StaysIn dir lock? touched scene' :=
  ⟨h, .of_eq hdisk⟩

/-- Preparing a wallet touches its own file and the temporary one, however far it gets. -/
theorem Placed.within_prepared (h : scene.manager.Placed dir lock?) {password : String}
    {prepared : Except Error SoftWallet} {world : World}
    (hprepared : scene.Prepared name password prepared world) :
    Disk.Within dir (Envelope.IsOwnName name.fileBytes) scene.world.disk world.disk := by
  obtain ⟨wallet, hsaves, -⟩ := hprepared.saves
  exact hsaves.within name.isFileName (h.walletPath_eq name)

theorem Placed.prepared (h : scene.manager.Placed dir lock?) {password : String} {world : World}
    (hprepared : scene.Prepared name password (.ok wallet) world) :
    (scene.manager.registered name wallet).Placed dir lock? := by
  obtain ⟨wallet, hsaves, hdone⟩ := hprepared.saves
  obtain ⟨rfl, hreachable⟩ := hdone _ rfl
  exact h.registered hreachable (hsaves.confined.path_eq.trans (h.walletPath_eq name))

end Manager

namespace Command

variable {command : Command SoftWallet} {dir : Path} {lock? : Option DirectoryLock}
  {scene scene' : Scene SoftWallet} {result : Except Error Reply}

theorem Changes.mutated?_eq {text : String} {request : Request}
    {act : Act Error (SoftWallet × World) Reply} (h : command.Changes text request act) :
    command.mutated? = some text := by
  cases h <;> rfl

/-- Every command that neither moves nor locks a manager nor hands it a wallet leaves it placed, and
    touches nothing but the files of the wallet that it makes or whose keys it changes. -/
theorem Effect.staysIn (heffect : Effect command scene result scene')
    (hconfined : command.isConfined = true) (hlock : command ≠ .initializeLock)
    (h : scene.manager.Placed dir lock?) : scene.StaysIn dir lock? command.Touches scene' := by
  cases heffect with
  | looked hsaw =>
    refine Manager.Placed.staysIn_of_disk_eq ?_ hsaw.drew.disk_eq
    rw [hsaw.manager_eq]
    exact h
  | locked hopen =>
    refine (h.afterLocking (Manager.mem_of_find?_eq_some hopen.1).1).staysIn_of_disk_eq rfl
  | lockedAll =>
    refine h.lockedAll.staysIn_of_disk_eq ?_
    rw [Scene.lockedAll_eq h.distinct]
  | timeoutSet hset =>
    exact ⟨⟨h.dir_eq, h.dirLock_eq, h.distinct, h.every⟩, .of_eq rfl⟩
  | timeoutDisabled =>
    exact ⟨⟨h.dir_eq, h.dirLock_eq, h.distinct, h.every⟩, .of_eq rfl⟩
  | @changed _ _ scene₁ text _ _ entry _ wallet world hchanges hopen hsaw hworld hact =>
    obtain ⟨hmem, htext⟩ := Manager.mem_of_find?_eq_some hopen.1
    obtain ⟨hwallet, hpath⟩ := h.every _ _ hmem
    have hreachable := (SoftWallet.leads_of_changes hchanges).of_outcome hwallet hact
    have hsaves := SoftWallet.onlySaves_of_changes hchanges entry.2 scene.world hwallet
    rw [hact] at hsaves
    have hmutated : command.mutated? = some entry.1.text := by rw [hchanges.mutated?_eq, htext]
    refine ⟨?_, (hsaves.within entry.1.isFileName hpath).mono (touches_of_mutated hmutated)⟩
    show (scene₁.manager.replace entry.1 wallet).Placed dir lock?
    rw [hsaw.manager_eq]
    exact h.replace hreachable (hsaves.confined.path_eq.trans hpath)
  | opened hopened => exact (h.opened hopened).staysIn_of_disk_eq (Manager.disk_eq_of_load hopened.load)
  | openFailed hcommand hload => exact ⟨h, .of_eq (Manager.disk_eq_of_load hload)⟩
  | @unlocked _ scene₁ scene₂ text password entry _ wallet world hopened hsaw hfind hlocked hact =>
    obtain ⟨h₁, hdisk⟩ : scene₁.manager.Placed dir lock? ∧
        scene₁.world.disk = scene.world.disk := by
      rcases hopened with rfl | ⟨name', wallet', -, hopened⟩
      · exact ⟨h, rfl⟩
      · exact ⟨h.opened hopened, Manager.disk_eq_of_load hopened.load⟩
    obtain ⟨hwallet, hpath⟩ := h₁.every _ _ (Manager.mem_of_find?_eq_some hfind).1
    have hreachable := ((SoftWallet.leads_unlock password).map _).of_outcome hwallet hact
    have hspec := SoftWallet.unlock_spec password entry.2 scene₂.world
    have hdone : ((SoftWallet.unlock password).outcome (entry.2, scene₂.world)).2 =
        (wallet, world) := Act.state_of_outcome_map hact
    have hworld := hspec.world_eq
    have hkept := hspec.saves.confined.path_eq
    rw [hdone] at hworld hkept
    dsimp only at hworld hkept
    refine Manager.Placed.staysIn_of_disk_eq ?_ ?_
    · show (scene₂.manager.replace entry.1 wallet).Placed dir lock?
      rw [hsaw.manager_eq]
      exact h₁.replace hreachable (hkept.trans hpath)
    · show world.disk = scene.world.disk
      rw [hworld, hsaw.drew.disk_eq, hdisk]
  | unlockRefused hopened hsaw =>
    have hdisk := hsaw.drew.disk_eq.trans (Manager.disk_eq_of_load hopened.load)
    refine Manager.Placed.staysIn_of_disk_eq ?_ hdisk
    rw [hsaw.manager_eq]
    exact h.opened hopened
  | created hprepared =>
    exact ⟨h.prepared hprepared, (h.within_prepared hprepared).mono (touches_of_mutated rfl)⟩
  | createFailed hprepared =>
    exact ⟨h, (h.within_prepared hprepared).mono (touches_of_mutated rfl)⟩
  | createRefused hdisk hfaults => exact ⟨h, .of_eq hdisk⟩
  | owned howns hnew =>
    rcases howns with rfl | ⟨-, rfl⟩ <;> exact absurd hconfined (by simp [isConfined])
  | moved => exact absurd hconfined (by simp [isConfined])
  | directoryLocked => exact absurd rfl hlock
  | directoryFailed hcommand =>
    rcases hcommand with rfl | ⟨dir', rfl⟩
    · exact absurd rfl hlock
    · exact absurd hconfined (by simp [isConfined])
  | idle => exact h.staysIn_of_disk_eq rfl

end Command

/-! ## Managers without a lock -/

namespace Manager.Settled

variable {manager : Manager SoftWallet} {dir : Path} {name : WalletName} {wallet : SoftWallet}
  {scene scene' : Scene SoftWallet}

theorem walletPath_eq (h : manager.Settled dir) (name : WalletName) :
    manager.walletPath name = dir.join ⟨name.fileBytes⟩ :=
  (settled_iff.1 h).walletPath_eq name

theorem checked (h : scene.manager.Settled dir) : scene.checked.manager.Settled dir :=
  settled_iff.2 (settled_iff.1 h).checked

theorem start (h : scene.manager.Settled dir) (command : Command SoftWallet) :
    (command.start scene).manager.Settled dir :=
  settled_iff.2 ((settled_iff.1 h).start command)

theorem opened (h : scene.manager.Settled dir) (hopened : scene.Opened name wallet scene') :
    scene'.manager.Settled dir :=
  settled_iff.2 ((settled_iff.1 h).opened hopened)

end Manager.Settled

namespace Command

variable {command : Command SoftWallet} {dir : Path} {scene scene' : Scene SoftWallet}
  {result : Except Error Reply}

/-- Every command that leaves a manager in its directory leaves it settled there. -/
theorem Effect.settled (heffect : Effect command scene result scene')
    (hput : command.staysPut = true) (h : scene.manager.Settled dir) :
    scene'.manager.Settled dir := by
  have hconfined : command.isConfined = true ∧ command ≠ .initializeLock := by
    cases command <;> simp_all [staysPut, isConfined]
  exact Manager.settled_iff.2
    (heffect.staysIn hconfined.1 hconfined.2 (Manager.settled_iff.1 h)).placed

end Command

end Custody
