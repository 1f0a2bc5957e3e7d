import Custody.Proofs.Manager.Effect

set_option autoImplicit false

/-! # Managers that can come about

A manager is started and then given commands, each in a world of its own, so that whatever happens
between two commands is covered. What holds of every such manager is shown for a start and for one
command: its names are distinct, and its clock is the one that it was started with. -/

namespace Custody

variable [Suite] {W : Type} [SoftBackend W]

/-! ## What every command keeps -/

omit [Suite] in
theorem Scene.Opened.distinct {scene scene' : Scene W} {name : WalletName} {wallet : SoftWallet}
    (hopened : scene.Opened name wallet scene') (h : scene.manager.Distinct) :
    scene'.manager.Distinct := by
  rw [hopened.manager_eq]
  exact h.registered

omit [Suite] [SoftBackend W] in
theorem Scene.afterLocking_manager [Backend W] (scene : Scene W) (entry : WalletName × W) :
    (scene.afterLocking entry).manager = scene.manager ∨
      (scene.afterLocking entry).manager =
        scene.manager.replace entry.1 (Backend.lock entry.2) := by
  unfold Scene.afterLocking
  by_cases hlocked : Backend.isLocked entry.2 = true
  · exact .inl (if_pos hlocked)
  · exact .inr (if_neg hlocked)

omit [Suite] [SoftBackend W] in
/-- Locking all wallets changes nothing of a manager but them. -/
theorem Scene.lockedAll_manager [Backend W] (scene : Scene W) :
    ∃ wallets, scene.lockedAll.manager = { scene.manager with wallets } := by
  unfold Scene.lockedAll
  generalize scene.manager.wallets = entries
  induction entries generalizing scene with
  | nil => exact ⟨scene.manager.wallets, rfl⟩
  | cons entry rest ih =>
    obtain ⟨wallets, hwallets⟩ := ih (scene.afterLocking entry)
    refine ⟨wallets, hwallets.trans ?_⟩
    rcases scene.afterLocking_manager entry with heq | heq
    · rw [heq]
    · rw [heq]
      rfl

omit [Suite] [SoftBackend W] in
theorem Scene.checked_manager [Backend W] (scene : Scene W) :
    ∃ wallets, scene.checked.manager = { scene.manager with
      timeout := (scene.manager.timeout.check (scene.world.time scene.manager.clock)).2
      wallets } := by
  unfold Scene.checked
  dsimp only
  split
  · exact Scene.lockedAll_manager _
  · exact ⟨_, rfl⟩

omit [Suite] in
theorem Scene.distinct_afterLocking {scene : Scene W} {entry : WalletName × W}
    (h : scene.manager.Distinct) : (scene.afterLocking entry).manager.Distinct := by
  rcases scene.afterLocking_manager entry with heq | heq
  · rw [heq]
    exact h
  · rw [heq]
    exact h.replace

omit [Suite] in
theorem Scene.distinct_lockedAll {scene : Scene W} (h : scene.manager.Distinct) :
    scene.lockedAll.manager.Distinct := by
  rw [Scene.lockedAll_eq h]
  unfold Manager.Distinct at h ⊢
  rw [List.map_map]
  exact h

omit [Suite] in
theorem Scene.distinct_checked {scene : Scene W} (h : scene.manager.Distinct) :
    scene.checked.manager.Distinct := by
  unfold Scene.checked
  dsimp only
  split
  · exact Scene.distinct_lockedAll h
  · exact h

namespace Command

variable {command : Command W} {scene scene' : Scene W} {result : Except Error Reply}

theorem Effect.distinct (heffect : Effect command scene result scene')
    (h : scene.manager.Distinct) : scene'.manager.Distinct := by
  cases heffect with
  | looked hsaw => rw [hsaw.manager_eq]; exact h
  | locked hopen => exact Scene.distinct_afterLocking h
  | lockedAll => exact Scene.distinct_lockedAll h
  | changed hchanges hopen hsaw hworld hact =>
    show (Manager.replace _ _ _).Distinct
    rw [hsaw.manager_eq]
    exact h.replace
  | opened hopened => exact hopened.distinct h
  | unlocked hopened hsaw hfind hlocked hact =>
    show (Manager.replace _ _ _).Distinct
    rw [hsaw.manager_eq]
    rcases hopened with rfl | ⟨name', wallet', -, hopened⟩
    · exact h.replace
    · exact (hopened.distinct h).replace
  | unlockRefused hopened hsaw => rw [hsaw.manager_eq]; exact hopened.distinct h
  | created hprepared => exact h.registered
  | @owned _ _ name wallet _ howns hnew =>
    unfold Manager.Distinct at h ⊢
    rw [List.map_append, List.nodup_append]
    refine ⟨h, by simp, ?_⟩
    rintro other hother _ hname rfl
    rw [List.map_singleton, List.mem_singleton] at hname
    subst hname
    obtain ⟨⟨_, wallet'⟩, hmem, rfl⟩ := List.mem_map.1 hother
    rw [Manager.isRegistered_of_mem hmem] at hnew
    exact absurd hnew (by simp)
  | _ => exact h

omit [Suite] in
theorem distinct_start (h : scene.manager.Distinct) : (command.start scene).manager.Distinct := by
  unfold start
  split
  · exact Scene.distinct_checked h
  · exact h

omit [Suite] in
/-- Looking at the timeout leaves the world alone. -/
theorem world_start (h : scene.manager.Distinct) (command : Command W) :
    (command.start scene).world = scene.world := by
  unfold start
  split
  · exact (Scene.checked_eq h).1
  · rfl

omit [Suite] in
/-- Looking at the timeout changes nothing of a manager but its window and its wallets. -/
theorem start_manager (command : Command W) (scene : Scene W) : ∃ timeout wallets,
    (command.start scene).manager = { scene.manager with timeout, wallets } := by
  unfold start
  split
  · obtain ⟨wallets, hchecked⟩ := scene.checked_manager
    exact ⟨_, wallets, hchecked⟩
  · exact ⟨_, _, rfl⟩

omit [Suite] in
theorem start_clock : (command.start scene).manager.clock = scene.manager.clock := by
  obtain ⟨timeout, wallets, hstart⟩ := start_manager command scene
  rw [hstart]

/-- Whether the operation is made to move or to remove the window. -/
def setsTimeout : Command W → Bool
  | .setTimeout _ | .disableTimeout => true
  | _ => false

/-- No command changes the clock, and only those that are made for it change the window once it has
    been looked at. -/
theorem Effect.window_eq (heffect : Effect command scene result scene') :
    scene'.manager.clock = scene.manager.clock ∧
      (command.setsTimeout = false → scene'.manager.timeout = scene.manager.timeout) := by
  cases heffect with
  | looked hsaw => rw [hsaw.manager_eq]; exact ⟨rfl, fun _ => rfl⟩
  | @locked _ _ entry hopen =>
    rcases scene.afterLocking_manager entry with heq | heq
    · rw [heq]
      exact ⟨rfl, fun _ => rfl⟩
    · rw [heq]
      exact ⟨rfl, fun _ => rfl⟩
  | lockedAll =>
    obtain ⟨wallets, heq⟩ := scene.lockedAll_manager
    rw [heq]
    exact ⟨rfl, fun _ => rfl⟩
  | timeoutSet hset => exact ⟨rfl, fun hsets => absurd hsets (by simp [setsTimeout])⟩
  | timeoutDisabled => exact ⟨rfl, fun hsets => absurd hsets (by simp [setsTimeout])⟩
  | changed hchanges hopen hsaw hworld hact =>
    show (Manager.replace _ _ _).clock = _ ∧ (_ → (Manager.replace _ _ _).timeout = _)
    rw [hsaw.manager_eq]
    exact ⟨rfl, fun _ => rfl⟩
  | opened hopened =>
    rw [hopened.manager_eq]
    exact ⟨rfl, fun _ => rfl⟩
  | unlocked hopened hsaw hfind hlocked hact =>
    show (Manager.replace _ _ _).clock = _ ∧ (_ → (Manager.replace _ _ _).timeout = _)
    rw [hsaw.manager_eq]
    rcases hopened with rfl | ⟨name', wallet', -, hopened⟩
    · exact ⟨rfl, fun _ => rfl⟩
    · rw [hopened.manager_eq]
      exact ⟨rfl, fun _ => rfl⟩
  | unlockRefused hopened hsaw =>
    rw [hsaw.manager_eq, hopened.manager_eq]
    exact ⟨rfl, fun _ => rfl⟩
  | _ => exact ⟨rfl, fun _ => rfl⟩

end Command

/-! ## Starting -/

namespace Manager

omit [Suite] in
/-- A manager starts in the directory of its settings, without wallets and without a lock, and with
    the timeout of its settings. -/
theorem start_spec {config : Config} {clock : Clock} {world world' : World} {manager : Manager W}
    (h : (start config clock).outcome world = (.ok manager, world')) :
    (World.makeDirectories config.walletDir).outcome world = (.ok (), world') ∧
      manager = ⟨config.walletDir, config.cost, [], manager.timeout, clock, none⟩ ∧
      match config.unlockTimeout with
      | some duration => UnlockTimeout.set? duration (world'.time clock) = some manager.timeout
      | none => manager.timeout = .disabled := by
  unfold start at h
  rw [Act.outcome_bind, Act.outcome_mapError] at h
  rcases hmake : (World.makeDirectories config.walletDir).outcome world with ⟨error | _, world₁⟩
  · rw [hmake] at h
    exact absurd (congrArg Prod.fst h) (by simp [Except.mapError])
  · rw [hmake] at h
    obtain ⟨dir, timeout?, cost, probe⟩ := config
    cases timeout? with
    | none =>
      cases probe <;> (cases h; exact ⟨rfl, rfl, rfl⟩)
    | some duration =>
      simp only [Except.mapError, Act.outcome_mk, Act.outcome_bind, Command.outcome_setTimeout] at h
      cases hset : UnlockTimeout.set? duration (world₁.time clock) with
      | none =>
        rw [hset] at h
        exact absurd (congrArg Prod.fst h) (by simp [Except.map])
      | some timeout =>
        rw [hset] at h
        cases probe <;> (cases h; exact ⟨rfl, rfl, hset⟩)

omit [Suite] in
/-- All that a start does to the disk, whether it succeeds or not, is to make directories. -/
theorem disk_start (config : Config) (clock : Clock) (world : World) :
    ((start (W := W) config clock).outcome world).2.disk =
      ((World.makeDirectories config.walletDir).outcome world).2.disk := by
  unfold start
  rw [Act.outcome_bind, Act.outcome_mapError]
  rcases (World.makeDirectories config.walletDir).outcome world with ⟨error | _, world₁⟩
  · rfl
  · obtain ⟨dir, timeout?, cost, probe⟩ := config
    cases timeout? with
    | none => cases probe <;> rfl
    | some duration =>
      simp only [Except.mapError, Act.outcome_mk, Act.outcome_bind, Command.outcome_setTimeout]
      cases UnlockTimeout.set? duration (world₁.time clock) with
      | none => rfl
      | some timeout => cases probe <;> rfl

/-- The manager after one command in a world. -/
def after (manager : Manager W) (world : World) (command : Command W) : Manager W :=
  (command.perform.outcome ⟨manager, world, []⟩).2.manager

omit [Suite] in
theorem walletPath_start {manager : Manager W} {world : World} {command : Command W}
    {name : WalletName} :
    (command.start ⟨manager, world, []⟩).manager.walletPath name = manager.walletPath name := by
  obtain ⟨timeout, wallets, hstart⟩ := Command.start_manager command ⟨manager, world, []⟩
  rw [hstart]
  rfl

omit [Suite] in
/-- The look at the timeout registers no wallet and takes none away. -/
theorem names_start {manager : Manager W} {world : World} {command : Command W}
    (hdistinct : manager.Distinct) :
    (command.start ⟨manager, world, []⟩).manager.names = manager.names := by
  have hscene : (⟨manager, world, []⟩ : Scene W).manager.Distinct := hdistinct
  unfold names Command.start
  split
  · rw [(Scene.checked_eq hscene).2]
    split
    · rw [List.map_map]
      rfl
    · rfl
  · rfl

omit [Suite] in
theorem isRegistered_start {manager : Manager W} {world : World} {command : Command W}
    (hdistinct : manager.Distinct) (text : String) :
    (command.start ⟨manager, world, []⟩).manager.isRegistered text = manager.isRegistered text := by
  rw [isRegistered_eq_any, isRegistered_eq_any, names_start hdistinct]

/-- A manager that some start and some commands lead to. -/
inductive Reachable (admits : Command W → Prop) : Manager W → Prop
  | start {config : Config} {clock : Clock} {world world' : World} {manager : Manager W}
    (hstart : (Manager.start config clock).outcome world = (.ok manager, world')) :
    Reachable admits manager
  | command {manager : Manager W} (hreachable : Reachable admits manager) (command : Command W)
    (hadmits : admits command) (world : World) :
    Reachable admits (manager.after world command)

theorem Reachable.distinct {admits : Command W → Prop} {manager : Manager W}
    (h : Reachable admits manager) : manager.Distinct := by
  induction h with
  | start hstart =>
    rw [(start_spec hstart).2.1]
    exact List.nodup_nil
  | command hreachable command hadmits world ih =>
    exact (command.effect ⟨_, world, []⟩).distinct (Command.distinct_start ih)

end Manager

end Custody
