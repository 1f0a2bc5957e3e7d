import Custody.Proofs.Manager.Soft
import Custody.Proofs.Wallet.Harmless

set_option autoImplicit false

/-! # Managers and directory locks

A manager that has a directory lock has the one of its directory (`Manager.Tidy`). Two commands are
about the directory: `Command.Moving` and `Command.Locking` say everything that they can do. Every
other command leaves the directory, the lock and all markers as they are
(`Command.keepsMarkers_perform`), and so the live locks and the disk stay together whatever a
manager is told to do (`Command.held_perform`). -/

namespace Custody

open DirectoryLock (markerName)

/-! ## The directory and its lock -/

namespace Command

variable [Suite] {W : Type} [SoftBackend W]

/-- How a change of the directory ends: a manager that has a lock is not moved. -/
inductive Moving (dir : Path) (scene : Scene W) : Except Error Reply × Scene W → Prop
  | refused (hheld : scene.manager.dirLock.isSome = true) :
    Moving dir scene
      (.error (.directoryLockUnavailable (DirectoryLock.markerPath scene.manager.dir) .heldHere),
        scene)
  | failed {error : IoError} {world : World} (hfree : scene.manager.dirLock = none)
    (hmake : (World.makeDirectories dir).outcome scene.world = (.error error, world)) :
    Moving dir scene (.error (.io (.system error)), { scene with world })
  | moved {world : World} (hfree : scene.manager.dirLock = none)
    (hmake : (World.makeDirectories dir).outcome scene.world = (.ok (), world)) :
    Moving dir scene (.ok .done, { scene with manager := { scene.manager with dir }, world })

/-- How locking the directory ends: a manager that has a lock has nothing to do. -/
inductive Locking (scene : Scene W) : Except Error Reply × Scene W → Prop
  | held (hheld : scene.manager.dirLock.isSome = true) : Locking scene (.ok .done, scene)
  | failed {error : Error} {world : World} (hfree : scene.manager.dirLock = none)
    (hacquire : (DirectoryLock.acquire scene.manager.dir).outcome scene.world =
      (.error error, world)) : Locking scene (.error error, { scene with world })
  | locked {lock : DirectoryLock} {world : World} (hfree : scene.manager.dirLock = none)
    (hacquire : (DirectoryLock.acquire scene.manager.dir).outcome scene.world = (.ok lock, world)) :
    Locking scene
      (.ok .done, { scene with manager := { scene.manager with dirLock := some lock }, world })

theorem moving_setDir (dir : Path) (scene : Scene W) :
    Moving dir scene ((perform (.setDir dir)).outcome scene) := by
  rw [perform, outcome_bind_return]
  unfold Manager.setDir
  simp only [Act.outcome_bind, Act.outcome_get, Manager.outcome_onWorld, Act.outcome_ite,
    Act.outcome_throw, Act.outcome_mapError]
  split
  · rename_i hheld
    exact .refused hheld
  · rename_i hfree
    rw [Option.not_isSome_iff_eq_none] at hfree
    rcases hmake : (World.makeDirectories dir).outcome scene.world with ⟨error | _, world⟩
    · exact .failed hfree hmake
    · exact .moved hfree hmake

theorem locking_initializeLock (scene : Scene W) :
    Locking scene ((perform .initializeLock).outcome scene) := by
  rw [perform, outcome_bind_return]
  unfold Manager.initializeLock
  simp only [Act.outcome_bind, Act.outcome_get, Manager.outcome_onWorld, Act.outcome_ite,
    Act.outcome_pure]
  split
  · rename_i hheld
    exact .held hheld
  · rename_i hfree
    rw [Option.not_isSome_iff_eq_none] at hfree
    rcases hacquire : (DirectoryLock.acquire scene.manager.dir).outcome scene.world
      with ⟨error | lock, world⟩
    · exact .failed hfree hacquire
    · exact .locked hfree hacquire

end Command

/-! ## Everything else -/

/-- What a command hands over is as stated. -/
def Command.Hands {W : Type} (P : W → Prop) : Command W → Prop
  | .own _ wallet => P wallet
  | .registerPlatform (.ok wallet) => P wallet
  | _ => True

/-- Whether a command is about the directory of the manager. -/
def Command.isOfDirectory {W : Type} : Command W → Bool
  | .setDir _ | .initializeLock => true
  | _ => false

variable [Suite] {B : Type} [Backend B]

/-- All wallets of the manager are harmless, and a lock that it has is the one of its directory. -/
structure Manager.Tidy (manager : Manager (SoftWallet ⊕ B)) : Prop where
  distinct : manager.Distinct
  every : manager.Every fun _ wallet => Backend.Harmless wallet
  marker_eq : ∀ lock, manager.dirLock = some lock →
    lock.marker = DirectoryLock.markerPath manager.dir

/-- The manager has the directory and the lock that it had and harmless wallets, and every marker is
    still the file that it was. -/
structure Scene.KeepsMarkers (scene scene' : Scene (SoftWallet ⊕ B)) : Prop where
  dir_eq : scene'.manager.dir = scene.manager.dir
  dirLock_eq : scene'.manager.dirLock = scene.manager.dirLock
  every : scene'.manager.Every fun _ wallet => Backend.Harmless wallet
  leaves : Disk.Leaves markerName scene.world.disk scene'.world.disk

section KeepsMarkers

variable {scene scene₁ scene' : Scene (SoftWallet ⊕ B)}

theorem Scene.KeepsMarkers.trans (h : scene.KeepsMarkers scene₁) (h' : scene₁.KeepsMarkers scene') :
    scene.KeepsMarkers scene' :=
  ⟨h'.dir_eq.trans h.dir_eq, h'.dirLock_eq.trans h.dirLock_eq, h'.every, h.leaves.trans h'.leaves⟩

/-- Nothing but the timeout, the world apart from the disk and the trace has changed. -/
theorem Scene.KeepsMarkers.of_disk_eq (hdir : scene'.manager.dir = scene.manager.dir)
    (hlock : scene'.manager.dirLock = scene.manager.dirLock)
    (hevery : scene'.manager.Every fun _ wallet => Backend.Harmless wallet)
    (hdisk : scene'.world.disk = scene.world.disk) : scene.KeepsMarkers scene' :=
  ⟨hdir, hlock, hevery, .of_eq hdisk⟩

/-- Looking at wallets keeps the markers. -/
theorem Scene.Saw.keepsMarkers (hsaw : scene.Saw scene')
    (h : scene.manager.Every fun _ wallet => Backend.Harmless wallet) :
    scene.KeepsMarkers scene' := by
  refine .of_disk_eq ?_ ?_ ?_ hsaw.drew.disk_eq
  · rw [hsaw.manager_eq]
  · rw [hsaw.manager_eq]
  · rwa [hsaw.manager_eq]

/-- So does asking something of a wallet. -/
theorem Scene.KeepsMarkers.asked {entry : WalletName × (SoftWallet ⊕ B)} {wallet : SoftWallet ⊕ B}
    {world : World} {request : Request} {succeeded : Bool} (hentry : entry ∈ scene.manager.wallets)
    (h : scene.manager.Every fun _ wallet => Backend.Harmless wallet)
    (hasked : Backend.Asked (entry.2, scene.world) (wallet, world)) :
    scene.KeepsMarkers
      (Scene.noted { scene with manager := scene.manager.replace entry.1 wallet, world } entry.1
        request succeeded) := by
  have hwallet : Backend.Harmless entry.2 := h entry.1 entry.2 hentry
  obtain ⟨hwallet', hleaves⟩ := Backend.Harmless.asked hwallet hasked
  exact ⟨rfl, rfl, h.replace hwallet', hleaves⟩

theorem harmless_lock (_ : WalletName) (wallet : SoftWallet ⊕ B) (h : Backend.Harmless wallet) :
    Backend.Harmless (Backend.lock wallet) := h.lock

/-- A soft wallet at the path of a name's file is harmless. -/
theorem harmless_ofSoft {wallet : SoftWallet} {dir : Path} {name : WalletName}
    (hreachable : wallet.Reachable) (hpath : wallet.path = dir.join ⟨name.fileBytes⟩) :
    Backend.Harmless (SoftBackend.ofSoft wallet : SoftWallet ⊕ B) :=
  (SoftWallet.harmless hreachable (SoftWallet.apart_of_join hpath)).inl

theorem Scene.Opened.keepsMarkers {name : WalletName} {wallet : SoftWallet}
    (hopened : scene.Opened name wallet scene')
    (h : scene.manager.Every fun _ wallet => Backend.Harmless wallet) :
    scene.KeepsMarkers scene' := by
  have hreachable := SoftWallet.Leads.preparing (.of_step .load rfl) hopened.load
  obtain ⟨envelope, hload, rfl⟩ := hopened.loaded
  refine .of_disk_eq ?_ ?_ ?_ (Envelope.load_spec hload).1
  · rw [hopened.manager_eq]
    rfl
  · rw [hopened.manager_eq]
    rfl
  · rw [hopened.manager_eq]
    exact h.registered (harmless_ofSoft hreachable rfl)

/-- Preparing a wallet leaves the markers alone, however far it gets, and makes it harmless. -/
theorem Scene.Prepared.leaves {name : WalletName} {password : String}
    {prepared : Except Error SoftWallet} {world : World}
    (hprepared : scene.Prepared name password prepared world) :
    Disk.Leaves markerName scene.world.disk world.disk ∧
      ∀ wallet, prepared = .ok wallet →
        Backend.Harmless (SoftBackend.ofSoft wallet : SoftWallet ⊕ B) := by
  obtain ⟨wallet, hsaves, hdone⟩ := hprepared.saves
  have hapart : (SoftWallet.new (scene.manager.walletPath name) scene.manager.cost).Apart :=
    SoftWallet.apart_of_join rfl
  refine ⟨(hsaves.confined.apart hapart).2, ?_⟩
  intro wallet' hprepared
  obtain ⟨rfl, hreachable⟩ := hdone wallet' hprepared
  exact harmless_ofSoft hreachable hsaves.confined.path_eq

namespace Command

variable {command : Command (SoftWallet ⊕ B)} {result : Except Error Reply}

theorem Effect.keepsMarkers (heffect : Effect command scene result scene')
    (hcommand : command.isOfDirectory = false) (hhands : command.Hands Backend.Harmless)
    (hdistinct : scene.manager.Distinct)
    (h : scene.manager.Every fun _ wallet => Backend.Harmless wallet) :
    scene.KeepsMarkers scene' := by
  cases heffect with
  | looked hsaw => exact hsaw.keepsMarkers h
  | idle => exact .of_disk_eq rfl rfl h rfl
  | @locked _ _ entry hopen =>
    have hentry := h _ _ (Manager.mem_of_find?_eq_some hopen.1).1
    have hevery := h.afterLocking harmless_lock hentry
    rcases scene.afterLocking_manager entry with heq | heq
    · exact .of_disk_eq (by rw [heq]) (by rw [heq]) hevery rfl
    · exact .of_disk_eq (by rw [heq]; rfl) (by rw [heq]; rfl) hevery rfl
  | lockedAll =>
    have hevery := h.lockedAll harmless_lock
    rw [Scene.lockedAll_eq hdistinct] at hevery ⊢
    exact .of_disk_eq rfl rfl hevery rfl
  | timeoutSet => exact .of_disk_eq rfl rfl h rfl
  | timeoutDisabled => exact .of_disk_eq rfl rfl h rfl
  | @changed _ _ scene₁ _ _ _ entry _ wallet world hchanges hopen hsaw hworld hact =>
    have h₁ := hsaw.keepsMarkers h
    have hentry := (Manager.mem_of_find?_eq_some hopen.1).1
    have hasked := Backend.Asked.of_changes hchanges (entry.2, scene₁.world)
    rw [hworld, hact] at hasked
    rw [← hsaw.manager_eq] at hentry
    rw [← hworld] at hasked
    exact h₁.trans (.asked hentry h₁.every hasked)
  | opened hopened => exact hopened.keepsMarkers h
  | openFailed hcommand hload => exact .of_disk_eq rfl rfl h (Manager.disk_eq_of_load hload)
  | @unlocked _ scene₁ scene₂ _ password entry _ wallet world hopened hsaw hfind hlocked hact =>
    have h₁ : scene.KeepsMarkers scene₁ := by
      rcases hopened with rfl | ⟨name', wallet', -, hopened⟩
      · exact .of_disk_eq rfl rfl h rfl
      · exact hopened.keepsMarkers h
    have h₂ := hsaw.keepsMarkers h₁.every
    have hentry := (Manager.mem_of_find?_eq_some hfind).1
    have hasked := Backend.Asked.unlock password (entry.2, scene₂.world)
    rw [Act.state_of_outcome_map hact] at hasked
    rw [← hsaw.manager_eq] at hentry
    exact (h₁.trans h₂).trans (.asked hentry h₂.every hasked)
  | unlockRefused hopened hsaw =>
    have h₁ := hopened.keepsMarkers h
    exact h₁.trans (hsaw.keepsMarkers h₁.every)
  | created hprepared =>
    obtain ⟨hleaves, hwallet⟩ := hprepared.leaves
    exact ⟨rfl, rfl, h.registered (hwallet _ rfl), hleaves⟩
  | createFailed hprepared => exact ⟨rfl, rfl, h, hprepared.leaves.1⟩
  | createRefused hdisk hfaults => exact .of_disk_eq rfl rfl h hdisk
  | @owned _ _ name wallet _ howns hnew =>
    refine .of_disk_eq rfl rfl (h.append ?_) rfl
    rcases howns with rfl | ⟨-, rfl⟩ <;> exact hhands
  | moved => exact absurd hcommand (by simp [isOfDirectory])
  | directoryLocked => exact absurd hcommand (by simp [isOfDirectory])
  | directoryFailed hof =>
    rcases hof with rfl | ⟨dir, rfl⟩ <;> exact absurd hcommand (by simp [isOfDirectory])

/-- The look at the timeout keeps the markers. -/
theorem keepsMarkers_start (h : scene.manager.Tidy) (command : Command (SoftWallet ⊕ B)) :
    scene.KeepsMarkers (command.start scene) := by
  have hworld := world_start h.distinct command
  have hevery := h.every.start harmless_lock command
  obtain ⟨timeout, wallets, hmanager⟩ := start_manager command scene
  refine .of_disk_eq ?_ ?_ hevery (congrArg World.disk hworld)
  · rw [hmanager]
  · rw [hmanager]

/-- A command that is not about the directory keeps the markers, whatever comes of it. -/
theorem keepsMarkers_perform (h : scene.manager.Tidy) (hcommand : command.isOfDirectory = false)
    (hhands : command.Hands Backend.Harmless) :
    scene.KeepsMarkers (command.perform.outcome scene).2 := by
  have hstart := keepsMarkers_start h command
  exact hstart.trans ((command.effect scene).keepsMarkers hcommand hhands
    (distinct_start h.distinct) hstart.every)

/-- Whatever a manager is told to do, it keeps its lock and its directory together, and the live
    locks and the disk stay together: its own lock, if it has one then, and those of others. -/
theorem held_perform {others : List DirectoryLock}
    (hheld : DirectoryLock.Held (scene.manager.dirLock.toList ++ others) scene.world.disk)
    (h : scene.manager.Tidy) (hhands : command.Hands Backend.Harmless) :
    (command.perform.outcome scene).2.manager.Tidy ∧
      DirectoryLock.Held ((command.perform.outcome scene).2.manager.dirLock.toList ++ others)
        (command.perform.outcome scene).2.world.disk := by
  by_cases hcommand : command.isOfDirectory = true
  · cases command with
    | setDir dir =>
      have hleaves : Disk.Leaves markerName scene.world.disk
          ((World.makeDirectories dir).outcome scene.world).2.disk :=
        World.leaves_makeDirectories dir scene.world
      have hmoving := moving_setDir dir scene
      generalize (perform (.setDir dir)).outcome scene = done at hmoving ⊢
      cases hmoving with
      | refused hhas => exact ⟨h, hheld⟩
      | failed hfree hmake =>
        rw [hmake] at hleaves
        exact ⟨h, hheld.leaves hleaves⟩
      | moved hfree hmake =>
        -- only a manager without a lock is moved
        rw [hmake] at hleaves
        refine ⟨⟨h.distinct, h.every, ?_⟩, hheld.leaves hleaves⟩
        intro lock hsome
        exact absurd (hfree.symm.trans hsome) (by simp)
    | initializeLock =>
      have hlocking := locking_initializeLock scene
      generalize (perform .initializeLock).outcome scene = done at hlocking ⊢
      cases hlocking with
      | held hhas => exact ⟨h, hheld⟩
      | failed hfree hacquire => exact ⟨h, hheld.of_acquire_error hacquire⟩
      | locked hfree hacquire =>
        rw [hfree] at hheld
        refine ⟨⟨h.distinct, h.every, ?_⟩, hheld.of_acquire_ok hacquire⟩
        intro lock hsome
        rw [← Option.some.inj hsome]
        exact DirectoryLock.marker_eq_of_acquire hacquire
    | _ => exact absurd hcommand (by simp [isOfDirectory])
  · have hkeeps := keepsMarkers_perform h (Bool.eq_false_iff.2 hcommand) hhands
    refine ⟨⟨(command.effect scene).distinct (distinct_start h.distinct), hkeeps.every, ?_⟩, ?_⟩
    · rw [hkeeps.dirLock_eq, hkeeps.dir_eq]
      exact h.marker_eq
    · rw [hkeeps.dirLock_eq]
      exact hheld.leaves hkeeps.leaves

end Command

end KeepsMarkers

/-! ## Starting and dropping -/

namespace Manager

variable {config : Config} {clock : Clock} {world world' : World}

omit [Suite] in
/-- A start leaves the live locks live, whether it succeeds or not. -/
theorem held_start {W : Type} [SoftBackend W] {locks : List DirectoryLock}
    (h : DirectoryLock.Held locks world.disk) (config : Config) (clock : Clock) :
    DirectoryLock.Held locks ((start (W := W) config clock).outcome world).2.disk := by
  refine h.leaves ?_
  rw [disk_start]
  exact World.leaves_makeDirectories config.walletDir world

/-- A manager that has just been started has no lock, and no wallets. -/
theorem tidy_start {manager : Manager (SoftWallet ⊕ B)}
    (h : (start config clock).outcome world = (.ok manager, world')) :
    manager.Tidy ∧ manager.dirLock = none := by
  have hspec := (start_spec h).2.1
  rw [hspec]
  refine ⟨⟨List.nodup_nil, ?_, ?_⟩, rfl⟩
  · intro _ _ hmem
    exact absurd hmem List.not_mem_nil
  · intro lock hsome
    exact absurd hsome (by simp)

omit [Suite] in
/-- The lock of a manager that is dropped is not live any more, and all others are. -/
theorem held_drop {W : Type} {manager : Manager W} {locks : List DirectoryLock}
    (h : DirectoryLock.Held (manager.dirLock.toList ++ locks) world.disk) :
    DirectoryLock.Held locks (manager.drop.outcome world).2.disk := by
  unfold drop
  cases hlock : manager.dirLock with
  | none =>
    rw [hlock] at h
    exact h
  | some lock =>
    rw [hlock] at h
    exact h.of_release

end Manager

end Custody
