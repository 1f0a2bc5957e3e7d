import Custody.Proofs.Manager.Expiry
import Custody.Proofs.Manager.Gate
import Custody.Proofs.Manager.Markers
import Custody.Proofs.Manager.Reopening
import Custody.Proofs.Manager.Signing
import Custody.Proofs.Wallet.Failing

set_option autoImplicit false

/-! # Commands that fail

A command that fails leaves a manager of soft wallets as it was, apart from the look at the timeout,
and leaves the files of all wallets alone: `Manager.Reachable.failure_untraced`. One thing stays
behind by design: the wallet of a file that was opened to be unlocked is registered, locked, even if
the password turns out to be wrong. -/

namespace Custody

/-! ## Failing -/

/-- The answer is an error, or says that no hardware keystore has been registered. -/
def Command.Failed (result : Except Error Reply) : Prop :=
  (∃ error, result = .error error) ∨ result = .ok (.flag false)

/-- The command is to unlock a wallet that is not registered, and the wallet's file can be
    loaded. -/
structure Command.OpensFile {W : Type} (command : Command W) (manager : Manager W) (world : World)
    (name : WalletName) (envelope : Envelope) : Prop where
  isUnlock : ∃ password, command = .unlock name.text password
  isNew : manager.isRegistered name.text = false
  loads : ((Envelope.load (manager.walletPath name)).outcome world).1 = .ok envelope

namespace Manager

/-- The registry with one more wallet behind the others. -/
def withEntry {W : Type} (manager : Manager W) (name : WalletName) (wallet : W) : Manager W :=
  { manager with wallets := manager.wallets ++ [(name, wallet)] }

theorem registered_of_new {W : Type} {manager : Manager W} {name : WalletName}
    (h : manager.isRegistered name.text = false) (wallet : W) :
    manager.registered name wallet = manager.withEntry name wallet := by
  have hfilter : manager.wallets.filter (·.1 ≠ name) = manager.wallets := by
    rw [List.filter_eq_self]
    rintro ⟨other, x⟩ hmem
    refine decide_eq_true ?_
    rintro rfl
    exact isRegistered_eq_false_iff.1 h (List.mem_map_of_mem hmem)
  unfold registered withEntry
  rw [hfilter]

/-- Nothing is replaced by what is there already. -/
theorem Distinct.replace_eq_self {W : Type} {manager : Manager W} {name : WalletName} {wallet : W}
    (h : manager.Distinct) (hmem : (name, wallet) ∈ manager.wallets) :
    manager.replace name wallet = manager := by
  have hmap : manager.wallets.map (fun entry => if entry.1 = name then (name, wallet) else entry) =
      manager.wallets := by
    rw [List.map_congr_left (g := id), List.map_id]
    rintro ⟨other, x⟩ hother
    split
    · rename_i heq
      obtain rfl : other = name := heq
      rw [h.eq_of_mem hother hmem]
      rfl
    · rfl
  unfold Manager.replace
  rw [hmap]

variable [Suite] {W : Type} [SoftBackend W]

/-- What the look at the timeout makes of the manager, if the command begins with it. -/
def idled (manager : Manager W) (world : World) (command : Command W) : Manager W :=
  if command.isChecked then manager.after world .checkTimeout else manager

theorem idled_eq (manager : Manager W) (world : World) (command : Command W) :
    manager.idled world command = (command.start ⟨manager, world, []⟩).manager := by
  unfold idled after Command.start
  rw [Command.perform, Command.outcome_bind_return, outcome_checkTimeout]
  split <;> rfl

omit [Suite] in
theorem exists_opensFile {scene scene' : Scene W} {name : WalletName} {wallet : SoftWallet}
    (hopened : scene.Opened name wallet scene')
    (hnew : scene.manager.isRegistered name.text = false) (password : String) : ∃ envelope,
      (Command.unlock name.text password : Command W).OpensFile scene.manager scene.world name
        envelope := by
  obtain ⟨envelope, hload, -⟩ := hopened.loaded
  exact ⟨envelope, ⟨password, rfl⟩, hnew, congrArg Prod.fst hload⟩

omit [Suite] in
/-- Without a file to open, unlocking begins with the registry as it is. -/
theorem eq_of_not_opensFile {scene scene₁ : Scene W} {text password : String}
    (hopened : scene₁ = scene ∨ ∃ (name : WalletName) (wallet : SoftWallet), name.text = text ∧
      scene.Opened name wallet scene₁)
    (hregistered : scene.manager.isRegistered text = true → scene₁ = scene)
    (hopens : ∀ name envelope, ¬ (Command.unlock text password : Command W).OpensFile scene.manager
      scene.world name envelope) : scene₁ = scene := by
  rcases hopened with rfl | ⟨name, wallet, rfl, hopened⟩
  · rfl
  · by_cases hknown : scene.manager.isRegistered name.text = true
    · exact hregistered hknown
    · obtain ⟨envelope, h⟩ := exists_opensFile hopened (Bool.eq_false_iff.2 hknown) password
      exact absurd h (hopens name envelope)

omit [Suite] in
/-- The look at the timeout makes no difference to the file. -/
theorem opensFile_of_start {manager : Manager W} {world : World} {command : Command W}
    {name : WalletName} {envelope : Envelope} (hdistinct : manager.Distinct)
    (h : command.OpensFile (command.start ⟨manager, world, []⟩).manager
      (command.start ⟨manager, world, []⟩).world name envelope) :
    command.OpensFile manager world name envelope := by
  obtain ⟨hunlock, hnew, hload⟩ := h
  have hworld : (command.start ⟨manager, world, []⟩).world = world :=
    Command.world_start hdistinct command
  rw [isRegistered_start hdistinct] at hnew
  rw [walletPath_start, hworld] at hload
  exact ⟨hunlock, hnew, hload⟩

omit [Suite] in
/-- After the look at the timeout, the file is opened and the wallet registered. -/
theorem exists_openFile_of_opensFile {manager : Manager W} {world : World} {command : Command W}
    {name : WalletName} {envelope : Envelope} (hdistinct : manager.Distinct)
    (hopens : command.OpensFile manager world name envelope) :
    let scene := (⟨manager, world, []⟩ : Scene W).checked
    scene.manager.isRegistered name.text = false ∧ ∃ world',
      (openFile name.text).outcome scene = (.ok (), { scene with
        manager := scene.manager.registered name
          (SoftBackend.ofSoft ⟨manager.walletPath name, manager.cost, some envelope, none⟩)
        world := world' }) := by
  let scene : Scene W := ⟨manager, world, []⟩
  have hstart : scene.checked = (Command.checkTimeout : Command W).start scene := rfl
  have hworld : scene.checked.world = world := (Scene.checked_eq hdistinct).1
  have hpath : scene.checked.manager.walletPath name = manager.walletPath name := by
    rw [hstart]
    exact walletPath_start
  have hcost : scene.checked.manager.cost = manager.cost := by
    obtain ⟨wallets, hchecked⟩ := scene.checked_manager
    rw [hchecked]
  -- the file is loaded in the world that the look at the timeout has left alone
  have hopen := outcome_openFile name scene.checked
  rw [hpath, hcost, hworld] at hopen
  rcases hdone : (Envelope.load (manager.walletPath name)).outcome world with ⟨result, world'⟩
  obtain rfl : result = .ok envelope := (congrArg Prod.fst hdone).symm.trans hopens.loads
  rw [hdone] at hopen
  refine ⟨?_, world', hopen⟩
  show scene.checked.manager.isRegistered name.text = false
  rw [hstart, isRegistered_start hdistinct, hopens.isNew]

end Manager

/-! ## What is left by an effect -/

section

variable [Suite] {command : Command SoftWallet} {scene scene' : Scene SoftWallet} {error : Error}

namespace Command

/-- Nothing but a file that has been opened to be unlocked is left in a manager by a failure. -/
theorem Effect.manager_of_error (heffect : Effect command scene (.error error) scene')
    (hdistinct : scene.manager.Distinct)
    (hmade : scene.manager.Every fun _ wallet => wallet.Reachable)
    (hopens : ∀ name envelope, ¬ command.OpensFile scene.manager scene.world name envelope) :
    scene'.manager = scene.manager := by
  cases heffect with
  | looked hsaw => exact hsaw.manager_eq
  | @changed _ _ _ _ _ _ entry _ wallet world hchanges hopen hsaw hworld hact =>
    have hentry := (Manager.mem_of_find?_eq_some hopen.1).1
    have hundone := SoftWallet.undone_of_changes hchanges (hmade _ _ hentry) scene.world error
      (congrArg Prod.fst hact)
    obtain rfl : wallet = entry.2 := (congrArg (·.2.1) hact).symm.trans hundone.1
    show Manager.replace _ _ _ = _
    rw [hsaw.manager_eq, hdistinct.replace_eq_self hentry]
  | @unlocked _ scene₁ scene₂ text password entry _ wallet world hopened hsaw hfind hlocked hact
      hregistered =>
    obtain rfl := Manager.eq_of_not_opensFile hopened hregistered hopens
    rw [Act.outcome_map] at hact
    have herror := Act.eq_error_of_map (congrArg Prod.fst hact)
    have hsaved := (SoftWallet.unlock_spec password entry.2 scene₂.world).eq_of_error herror
    obtain rfl : wallet = entry.2 := (congrArg (·.2.1) hact).symm.trans hsaved
    show Manager.replace _ _ _ = _
    rw [hsaw.manager_eq, hdistinct.replace_eq_self (Manager.mem_of_find?_eq_some hfind).1]
  | @unlockRefused _ _ _ name _ password _ hopened hsaw hnew =>
    obtain ⟨envelope, h⟩ := Manager.exists_opensFile hopened hnew password
    exact absurd h (hopens name envelope)
  | _ => rfl

/-- No file of a wallet is touched by a failure, as long as the directory is not what the command is
    about. -/
theorem Effect.intact_of_error (heffect : Effect command scene (.error error) scene')
    (hcommand : command.isOfDirectory = false)
    (hmade : scene.manager.Every fun _ wallet => wallet.Reachable) (name : WalletName) :
    Disk.Intact name.fileBytes scene.world.disk scene'.world.disk := by
  cases heffect with
  | looked hsaw => exact .of_eq hsaw.drew.disk_eq
  | idle => exact .refl _ _
  | @changed _ _ _ _ _ _ entry _ wallet world hchanges hopen hsaw hworld hact =>
    have hentry := (Manager.mem_of_find?_eq_some hopen.1).1
    have hundone := SoftWallet.undone_of_changes hchanges (hmade _ _ hentry) scene.world error
      (congrArg Prod.fst hact)
    rw [hact] at hundone
    exact hundone.2.intact name.temporaryName_ne_fileBytes
  | openFailed hopens hload => exact .of_eq (Manager.disk_eq_of_load hload)
  | @unlocked _ scene₁ scene₂ text password entry _ wallet world hopened hsaw hfind hlocked hact =>
    have hdisk : scene₁.world.disk = scene.world.disk := by
      rcases hopened with rfl | ⟨name', wallet₁, -, hopened⟩
      · rfl
      · exact Manager.disk_eq_of_load hopened.load
    have hunlock := SoftWallet.leavesDisk_unlock password entry.2 scene₂.world
    have hdone : ((SoftWallet.unlock password).outcome (entry.2, scene₂.world)).2 =
        (wallet, world) := Act.state_of_outcome_map hact
    rw [hdone] at hunlock
    exact .of_eq (hunlock.trans (hsaw.drew.disk_eq.trans hdisk))
  | unlockRefused hopened hsaw hnew =>
    exact .of_eq (hsaw.drew.disk_eq.trans (Manager.disk_eq_of_load hopened.load))
  | @createFailed _ created password _ world hprepared =>
    obtain ⟨world₁, hdisk, -, hprepare⟩ := hprepared.prepare
    have hreachable :=
      SoftWallet.Reachable.new (scene.manager.walletPath created) scene.manager.cost
    have hintact := SoftWallet.failsIntact_prepareNew password name _ world₁ hreachable error
    rw [Manager.outcome_preparing] at hprepare
    rw [congrArg Prod.snd hprepare, hdisk] at hintact
    exact hintact (Act.eq_error_of_map (congrArg Prod.fst hprepare))
  | createRefused hdisk hfaults => exact .of_eq hdisk
  | directoryFailed hof =>
    rcases hof with rfl | ⟨dir, rfl⟩ <;> exact absurd hcommand (by simp [isOfDirectory])

/-- A command about the directory that fails has made directories or opened the marker, and that is
    all. -/
theorem intact_of_directory (hcommand : command.isOfDirectory = true)
    (herror : (command.perform.outcome scene).1 = .error error) (name : WalletName) :
    Disk.Intact name.fileBytes scene.world.disk (command.perform.outcome scene).2.world.disk := by
  cases command with
  | setDir dir =>
    have hmoving := moving_setDir dir scene
    have hintact := World.intact_makeDirectories name.fileBytes dir scene.world
    generalize (perform (.setDir dir)).outcome scene = done at hmoving herror ⊢
    cases hmoving with
    | refused hheld => exact .refl _ _
    | failed hfree hmake =>
      rw [hmake] at hintact
      exact hintact
    | moved hfree hmake => exact absurd herror (by simp)
  | initializeLock =>
    have hlocking := locking_initializeLock scene
    generalize (perform .initializeLock).outcome scene = done at hlocking herror ⊢
    cases hlocking with
    | held hheld => exact .refl _ _
    | failed hfree hacquire =>
      exact (DirectoryLock.within_acquire hacquire).intact name.fileBytes_ne_marker
    | locked hfree hacquire => exact absurd herror (by simp)
  | _ => exact absurd hcommand (by simp [isOfDirectory])

/-- The only answer that is a failure without being an error leaves everything as it was. -/
theorem eq_of_flag_false (hflag : (command.perform.outcome scene).1 = .ok (.flag false)) :
    command.isChecked = false ∧ (command.perform.outcome scene).2 = scene := by
  cases command with
  | registerPlatform probe =>
    refine ⟨rfl, ?_⟩
    rw [perform, outcome_bind_return] at hflag ⊢
    rcases outcome_registerPlatform probe scene with hsame | ⟨_, _, -, -, -, hown⟩
    · rw [hsame]
    · rw [hown] at hflag
      exact absurd hflag (by simp [Except.map])
  | _ =>
    obtain ⟨_, -, hreply⟩ := exists_of_bind_return hflag
    exact absurd hreply (by simp)

end Command

namespace Manager

variable {manager : Manager SoftWallet} {world : World}

/-- A wallet that was not registered is registered when it is to be unlocked and its file loads, and
    stays so, locked, if the password then does not open it. -/
theorem after_of_opensFile {name : WalletName} {envelope : Envelope} (hdistinct : manager.Distinct)
    (hopens : command.OpensFile manager world name envelope)
    (herror : (command.perform.outcome ⟨manager, world, []⟩).1 = .error error) :
    manager.after world command = (manager.idled world command).withEntry name
      ⟨manager.walletPath name, manager.cost, some envelope, none⟩ := by
  have hdistinct' : (⟨manager, world, []⟩ : Scene SoftWallet).checked.manager.Distinct :=
    Scene.distinct_checked hdistinct
  obtain ⟨hnew, world', hopen⟩ := exists_openFile_of_opensFile hdistinct hopens
  obtain ⟨password, rfl⟩ := hopens.isUnlock
  obtain ⟨hanswer, hmanager⟩ := outcome_unlock_of_new hdistinct' hnew rfl hopen password
  rw [Command.perform, Command.outcome_bind_return] at herror
  have hfails := hanswer.symm.trans (Act.eq_error_of_map herror)
  have hsame := (SoftWallet.unlock_spec password _ world').eq_of_error hfails
  unfold after
  rw [Command.perform, Command.outcome_bind_return, hmanager, hsame,
    hdistinct'.registered.replace_eq_self ((mem_registered name _).2 (.inl ⟨rfl, rfl⟩)),
    registered_of_new hnew, idled_eq]
  rfl

/-- A command that fails leaves a manager of soft wallets just what the look at the timeout has made
    of it, if it begins with that: the registered wallets in their order, each locked or open with
    its keys and its password, the timeout, the directory and its lock. Only a wallet that was
    opened from its file to be unlocked stays behind, as the last one, locked. And no file of a
    wallet has been made, changed or taken away, wherever it is. -/
theorem Reachable.failure_untraced (h : Reachable Command.HandsOver manager) (world : World)
    (command : Command SoftWallet)
    (hfailed : Command.Failed (command.perform.outcome ⟨manager, world, []⟩).1) :
    ((∀ name envelope, ¬ command.OpensFile manager world name envelope) →
      manager.after world command = manager.idled world command) ∧
    (∀ name envelope, command.OpensFile manager world name envelope →
      manager.after world command = (manager.idled world command).withEntry name
        ⟨manager.walletPath name, manager.cost, some envelope, none⟩) ∧
    ∀ (name : WalletName) (parent : Location) (file : File),
      (command.perform.outcome ⟨manager, world, []⟩).2.world.disk.node?
          (parent ++ [name.fileBytes]) = some (.file file) ↔
        world.disk.node? (parent ++ [name.fileBytes]) = some (.file file) := by
  have hdistinct := h.distinct
  rcases hfailed with ⟨error, herror⟩ | hflag
  · have heffect := command.effect ⟨manager, world, []⟩
    rw [herror] at heffect
    have hdistinct' : (command.start ⟨manager, world, []⟩).manager.Distinct :=
      Command.distinct_start hdistinct
    have hworld : (command.start ⟨manager, world, []⟩).world = world :=
      Command.world_start hdistinct command
    have hmade : (command.start ⟨manager, world, []⟩).manager.Every fun _ wallet =>
        wallet.Reachable := Every.start (fun _ _ hwallet => hwallet.lock) h.every_reachable command
    refine ⟨?_, fun name envelope hopens => after_of_opensFile hdistinct hopens herror, ?_⟩
    · intro hnone
      rw [idled_eq]
      exact heffect.manager_of_error hdistinct' hmade fun name envelope hopens =>
        hnone name envelope (opensFile_of_start hdistinct hopens)
    · intro name parent file
      refine Disk.Intact.node?_eq_file_iff ?_ parent file
      by_cases hdirectory : command.isOfDirectory = true
      · exact Command.intact_of_directory hdirectory herror name
      · have hintact := heffect.intact_of_error (Bool.eq_false_iff.2 hdirectory) hmade name
        rwa [hworld] at hintact
  · obtain ⟨hunchecked, hsame⟩ := Command.eq_of_flag_false hflag
    refine ⟨fun _ => ?_, ?_, ?_⟩
    · unfold after idled
      rw [hsame, hunchecked]
      rfl
    · rintro name envelope ⟨⟨password, rfl⟩, -, -⟩
      exact absurd hunchecked (by simp [Command.isChecked])
    · intro name parent file
      rw [hsame]

end Manager

end

/-! ## A key that cannot be saved, and a password that is wrong -/

namespace Manager

local instance failurePrimitives : Suite := Suite.plain

/-- The world after a wallet has been created, with a device that has no space left. -/
def fullWorld : World :=
  { withEmptyWallet.world with faults := fun _ step =>
      if step = .write then some ⟨.noSpace, 8⟩ else none }

/-- A key cannot be saved there. -/
theorem failed_createKey : Command.Failed ((Command.createKey "w" "ed25519").perform.outcome
    ⟨withEmptyWallet.manager, fullWorld, []⟩).1 :=
  .inl (Act.exists_of_isOk_eq_false (by decide +kernel))

/-- A password that was guessed does not open the wallet. -/
theorem failed_unlock : Command.Failed ((Command.unlock "w" "guess").perform.outcome
    ⟨freshManager, withEmptyWallet.world, []⟩).1 :=
  .inl (Act.exists_of_isOk_eq_false (by decide +kernel))

/-- A key that is created and cannot be saved leaves no trace. A wrong password for a wallet that is
    not registered leaves nothing but the wallet, locked. -/
theorem failure_untraced_on_fullDevice :
    Reachable Command.HandsOver withEmptyWallet.manager ∧
      withEmptyWallet.manager.after fullWorld (.createKey "w" "ed25519") =
        withEmptyWallet.manager.idled fullWorld (.createKey "w" "ed25519") ∧
      Reachable Command.HandsOver freshManager ∧ ∃ envelope,
        freshManager.after withEmptyWallet.world (.unlock "w" "guess") =
          (freshManager.idled withEmptyWallet.world (.unlock "w" "guess")).withEntry walletName
            ⟨freshManager.walletPath walletName, .light, some envelope, none⟩ := by
  have hloads : ∃ envelope,
      ((Envelope.load (freshManager.walletPath walletName)).outcome withEmptyWallet.world).1 =
        .ok envelope := Act.exists_of_isOk (by decide +kernel)
  obtain ⟨envelope, hload⟩ := hloads
  refine ⟨reachable_withEmptyWallet, ?_, reachable_freshManager, envelope, ?_⟩
  · refine (reachable_withEmptyWallet.failure_untraced fullWorld _ failed_createKey).1 ?_
    rintro name envelope ⟨⟨password, heq⟩, -, -⟩
    exact absurd heq (by simp)
  · exact (reachable_freshManager.failure_untraced withEmptyWallet.world _ failed_unlock).2.1
      walletName envelope ⟨⟨"guess", rfl⟩, rfl, hload⟩

end Manager

end Custody
