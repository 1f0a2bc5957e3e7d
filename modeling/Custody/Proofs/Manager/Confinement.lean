import Custody.Proofs.Manager.Directory
import Custody.Proofs.Manager.Expiry
import Custody.Proofs.Manager.Markers
import Custody.Proofs.Manager.Signing
import Custody.Proofs.Wallet.Places

set_option autoImplicit false

/-! # Names confine what a manager does to the disk

A manager of soft wallets that is not moved touches nothing on the disk but files which lie directly
in its directory: the two files of the name that a command makes a wallet of or changes the keys of,
and the marker, when it locks the directory and when it is dropped. A step that fails ends its
command, so what is said here of every world is said of every stage of a command, too.
`Manager.Housed.confines` is the step, for every command, and `Manager.names_confine_files` is about
whole runs. -/

namespace Custody

open DirectoryLock (markerName markerPath)

/-! ## What a command may touch -/

namespace Command

variable {W : Type} {command : Command W} {name : WalletName} {last : Bytes}

/-- A command that is not about a wallet may not touch its files. -/
theorem not_touches (h : command.mutated? ≠ some name.text) (hlast : last ∈ name.ownNames) :
    ¬ command.Touches last := by
  rintro (⟨other, hmutated, hown⟩ | ⟨-, rfl⟩)
  · have hne : name ≠ other := by
      rintro rfl
      exact h hmutated
    exact WalletName.disjoint_ownNames hne hlast (WalletName.mem_ownNames_iff.2 hown)
  · exact name.markerName_notMem hlast

/-- Only the command to lock the directory may touch the marker. -/
theorem not_touches_markerName (h : command ≠ .initializeLock) : ¬ command.Touches markerName := by
  rintro (⟨other, -, hown⟩ | ⟨hcommand, -⟩)
  · exact other.markerName_notMem (WalletName.mem_ownNames_iff.2 hown)
  · exact h hcommand

end Command

namespace Manager

section Suite

variable [Suite]

/-! ## Calls and runs -/

section

variable {W : Type} [SoftBackend W]

/-- The world after a call. -/
def worldAfter (manager : Manager W) (call : Call W) : World :=
  (call.command.perform.outcome ⟨manager, call.world, []⟩).2.world

/-- The calls follow each other on one disk, from how it is before the first of them to how it is
    after the last, while nothing else happens to it. -/
def Continues (manager : Manager W) (disk : Disk) : List (Call W) → Disk → Prop
  | [], disk' => disk' = disk
  | call :: rest, disk' => call.world.disk = disk ∧
    (manager.after call.world call.command).Continues (manager.worldAfter call).disk rest disk'

end

/-- What a call does to the disk, given to a manager that works in the directory: files that lie
    directly there have been made, replaced, moved or taken away, of names that the command may
    touch. The files of other wallets are none of them, nor is the marker. -/
structure Confines (manager : Manager SoftWallet) (dir : Path) (call : Call SoftWallet) : Prop where
  within : Disk.Within dir call.command.Touches call.world.disk (manager.worldAfter call).disk
  others : ∀ name : WalletName, call.command.mutated? ≠ some name.text →
    ∀ last ∈ name.ownNames, ∀ parent,
      (manager.worldAfter call).disk.node? (parent ++ [last]) =
        call.world.disk.node? (parent ++ [last])
  marker : call.command ≠ .initializeLock → ∀ parent,
    (manager.worldAfter call).disk.node? (parent ++ [markerName]) =
      call.world.disk.node? (parent ++ [markerName])

/-- The manager works in the directory, its wallets are soft wallets of the files there, and a lock
    that it has is the one of the directory. -/
structure Housed (manager : Manager SoftWallet) (dir : Path) : Prop where
  placed : manager.Placed dir manager.dirLock
  marker_eq : ∀ lock, manager.dirLock = some lock → lock.marker = markerPath dir

variable {manager : Manager SoftWallet} {dir : Path} {call : Call SoftWallet}
  {calls : List (Call SoftWallet)}

theorem confines_of_within
    (h : Disk.Within dir call.command.Touches call.world.disk (manager.worldAfter call).disk) :
    manager.Confines dir call where
  within := h
  others _ hmutated _ hlast parent := h.node?_eq (Command.not_touches hmutated hlast) parent
  marker hcommand parent := h.node?_eq (Command.not_touches_markerName hcommand) parent

/-! ## One call -/

/-- Locking the directory touches the marker, whether it succeeds or not. -/
theorem Housed.initializeLock (h : manager.Housed dir) (world : World) :
    (manager.after world .initializeLock).Housed dir ∧
      Disk.Within dir (· = markerName) world.disk
        (manager.worldAfter ⟨world, .initializeLock⟩).disk := by
  have hlocking := Command.locking_initializeLock (⟨manager, world, []⟩ : Scene SoftWallet)
  unfold after worldAfter
  generalize (Command.perform .initializeLock).outcome (⟨manager, world, []⟩ : Scene SoftWallet) =
    done at hlocking ⊢
  cases hlocking with
  | held hhas => exact ⟨h, .of_eq rfl⟩
  | failed hfree hacquire =>
    rw [h.placed.dir_eq] at hacquire
    exact ⟨h, DirectoryLock.within_acquire hacquire⟩
  | @locked lock world' hfree hacquire =>
    rw [h.placed.dir_eq] at hacquire
    refine ⟨⟨⟨h.placed.dir_eq, rfl, h.placed.distinct, h.placed.every⟩, ?_⟩,
      DirectoryLock.within_acquire hacquire⟩
    intro lock' hsome
    obtain rfl : lock = lock' := Option.some.inj hsome
    exact DirectoryLock.marker_eq_of_acquire hacquire

/-- Whatever a manager is told, it stays in its directory and touches nothing but what the command
    may touch. -/
theorem Housed.confines (h : manager.Housed dir) (hconfined : call.command.isConfined = true) :
    (manager.after call.world call.command).Housed dir ∧ manager.Confines dir call := by
  obtain ⟨world, command⟩ := call
  by_cases hlock : command = .initializeLock
  · subst hlock
    obtain ⟨hhoused, hwithin⟩ := h.initializeLock world
    refine ⟨hhoused, confines_of_within (hwithin.mono ?_)⟩
    intro last hlast
    exact .inr ⟨rfl, hlast⟩
  · have hscene : (⟨manager, world, []⟩ : Scene SoftWallet).manager.Placed dir manager.dirLock :=
      h.placed
    have hstays := (command.effect ⟨manager, world, []⟩).staysIn hconfined hlock
      (hscene.start command)
    have hwithin := hstays.within
    rw [Command.world_start hscene.distinct] at hwithin
    have hsame : (manager.after world command).dirLock = manager.dirLock :=
      hstays.placed.dirLock_eq
    refine ⟨⟨?_, ?_⟩, confines_of_within hwithin⟩
    · rw [hsame]
      exact hstays.placed
    · rw [hsame]
      exact h.marker_eq

/-! ## Whole runs -/

theorem Housed.afterAll (h : manager.Housed dir)
    (hcalls : ∀ call ∈ calls, call.command.isConfined = true) :
    (manager.afterAll calls).Housed dir := by
  induction calls generalizing manager with
  | nil => exact h
  | cons call rest ih =>
    simp only [List.forall_mem_cons] at hcalls
    exact ih (h.confines hcalls.1).1 hcalls.2

/-- A run on one disk touches nothing but what some of its commands may touch. -/
theorem Housed.within_of_continues (h : manager.Housed dir)
    (hcalls : ∀ call ∈ calls, call.command.isConfined = true) {disk disk' : Disk}
    (hrun : manager.Continues disk calls disk') :
    Disk.Within dir (fun last => ∃ call ∈ calls, call.command.Touches last) disk disk' := by
  induction calls generalizing manager disk with
  | nil => exact .of_eq hrun
  | cons call rest ih =>
    simp only [List.forall_mem_cons] at hcalls
    obtain ⟨hdisk, hrest⟩ := hrun
    obtain ⟨hhoused, hconfines⟩ := h.confines hcalls.1
    have hfirst := hconfines.within
    rw [hdisk] at hfirst
    refine (hfirst.mono ?_).trans ((ih hhoused hcalls.2 hrest).mono ?_)
    · intro last htouches
      exact ⟨call, List.mem_cons_self, htouches⟩
    · rintro last ⟨other, hmem, htouches⟩
      exact ⟨other, List.mem_cons_of_mem call hmem, htouches⟩

/-- The end of a manager touches the marker, if it has the lock. -/
theorem Housed.within_drop (h : manager.Housed dir) (world : World) :
    Disk.Within dir (fun last => manager.holdsLock = true ∧ last = markerName) world.disk
      (manager.drop.outcome world).2.disk := by
  unfold drop holdsLock
  cases hlock : manager.dirLock with
  | none => exact .of_eq rfl
  | some lock =>
    refine (DirectoryLock.within_release (h.marker_eq lock hlock) world).mono ?_
    intro last hlast
    exact ⟨rfl, hlast⟩

/-! ## Starts -/

omit [Suite] in
/-- The files after a start are those before it. -/
theorem node?_start {W : Type} [SoftBackend W] (config : Config) (clock : Clock) (world : World)
    (parent : Location) (last : Bytes) (file : File) :
    ((start (W := W) config clock).outcome world).2.disk.node? (parent ++ [last]) =
        some (.file file) ↔
      world.disk.node? (parent ++ [last]) = some (.file file) := by
  rw [disk_start]
  exact (World.intact_makeDirectories last config.walletDir world).node?_eq_file_iff parent file

theorem housed_start {config : Config} {clock : Clock} {world world' : World}
    (h : (start config clock).outcome world = (.ok manager, world')) :
    manager.Housed config.walletDir := by
  rw [(start_spec h).2.1]
  refine ⟨⟨rfl, rfl, List.nodup_nil, ?_⟩, ?_⟩
  · intro _ _ hmem
    exact absurd hmem List.not_mem_nil
  · intro lock hsome
    exact absurd hsome (by simp)

/-- A text is a name just when it is made of ASCII letters, digits, dots, underscores and hyphens, and
    is neither empty nor stands for a directory. The files of two names and the marker are five, all
    of them directly in the directory. So a manager that has been started touches none but these,
    whatever it is told: a start makes no file; each call, in whatever world, touches no file but
    those of the name that it makes a wallet of or changes the keys of, or the marker if it is to
    lock the directory; all calls together touch no file but these; and so does the end of the
    manager, which takes away the marker of the lock that it has. -/
theorem names_confine_files :
    (∀ text, (∃ name, WalletName.parse text = .ok name ∧ name.text = text) ↔
      WalletName.Grammar text) ∧
    (∀ (dir : Path) (name other : WalletName), name ≠ other →
      ((name.places dir ++ other.places dir ++ [markerPath dir]).map Path.components).Nodup ∧
        ∀ path ∈ name.places dir ++ other.places dir ++ [markerPath dir], path.IsChildOf dir) ∧
    ∀ (config : Config) (clock : Clock) (world world' : World) (manager : Manager SoftWallet),
      (start config clock).outcome world = (.ok manager, world') →
      (∀ parent last file, world'.disk.node? (parent ++ [last]) = some (.file file) ↔
        world.disk.node? (parent ++ [last]) = some (.file file)) ∧
      ∀ calls : List (Call SoftWallet), (∀ call ∈ calls, call.command.isConfined = true) →
        (∀ name : WalletName, (manager.afterAll calls).walletPath name =
          config.walletDir.join (.ofString name.fileName)) ∧
        (∀ call : Call SoftWallet, call.command.isConfined = true →
          (manager.afterAll calls).Confines config.walletDir call) ∧
        (∀ disk', manager.Continues world'.disk calls disk' →
          Disk.Within config.walletDir (fun last => ∃ call ∈ calls, call.command.Touches last)
            world'.disk disk') ∧
        ∀ later : World, Disk.Within config.walletDir
          (fun last => (manager.afterAll calls).holdsLock = true ∧ last = markerName) later.disk
          ((manager.afterAll calls).drop.outcome later).2.disk := by
  refine ⟨WalletName.exists_parse_iff, ?_, ?_⟩
  · intro dir name other hne
    exact WalletName.places_apart dir hne
  · intro config clock world world' manager hstart
    have hhoused := housed_start hstart
    refine ⟨?_, ?_⟩
    · intro parent last file
      have hfiles := node?_start (W := SoftWallet) config clock world parent last file
      rw [hstart] at hfiles
      exact hfiles
    · intro calls hcalls
      have hafter := hhoused.afterAll hcalls
      refine ⟨hafter.placed.walletPath_eq, ?_, ?_, hafter.within_drop⟩
      · intro call hconfined
        exact (hafter.confines hconfined).2
      · intro disk' hrun
        exact hhoused.within_of_continues hcalls hrun

end Suite

/-! ## A wallet and a lock -/

section Plain

local instance confinementPrimitives : Suite := Suite.plain

/-- The world in which a fresh manager has created a wallet. -/
def creatingWorld : World := freshManager.worldAfter ⟨freshWorld, .create "w"⟩

/-- The world in which it has locked its directory after that. -/
def lockingWorld : World :=
  (freshManager.after freshWorld (.create "w")).worldAfter ⟨creatingWorld, .initializeLock⟩

/-- The two calls. -/
def creatingAndLocking : List (Call SoftWallet) :=
  [⟨freshWorld, .create "w"⟩, ⟨creatingWorld, .initializeLock⟩]

/-- The wallet's file and the marker have come into being, and they are all that has been touched. -/
theorem names_confine_files_of_creation :
    (start ⟨.ofString "d", none, .light, false⟩ .manual).outcome .blank =
        (.ok freshManager, freshWorld) ∧
      (∀ call ∈ creatingAndLocking, call.command.isConfined = true) ∧
      freshManager.Continues freshWorld.disk creatingAndLocking lockingWorld.disk ∧
      (∀ last, (∃ call ∈ creatingAndLocking, call.command.Touches last) ↔
        last ∈ [Utf8.encode "w.wallet", Utf8.encode "w.wallet.tmp", Utf8.encode "wallet.lock"]) ∧
      Disk.Within (.ofString "d") (fun last => ∃ call ∈ creatingAndLocking, call.command.Touches last)
        freshWorld.disk lockingWorld.disk ∧
      (freshWorld.disk.node? [Utf8.encode "d", Utf8.encode "w.wallet"]).isSome = false ∧
      (lockingWorld.disk.node? [Utf8.encode "d", Utf8.encode "w.wallet"]).isSome = true := by
  have hstart : (start ⟨.ofString "d", none, .light, false⟩ .manual).outcome .blank =
      (.ok freshManager, freshWorld) := Prod.ext rfl rfl
  have hcalls : ∀ call ∈ creatingAndLocking, call.command.isConfined = true := by
    simp [creatingAndLocking, Command.isConfined]
  have hrun : freshManager.Continues freshWorld.disk creatingAndLocking lockingWorld.disk :=
    ⟨rfl, rfl, rfl⟩
  obtain ⟨-, -, hruns⟩ := names_confine_files
  obtain ⟨-, hconfined⟩ := hruns _ _ _ _ _ hstart
  obtain ⟨-, -, hwithin, -⟩ := hconfined creatingAndLocking hcalls
  refine ⟨hstart, hcalls, hrun, ?_, hwithin _ hrun, by decide +kernel, by decide +kernel⟩
  intro last
  simp only [creatingAndLocking, List.mem_cons, List.not_mem_nil, or_false, exists_eq_or_imp,
    exists_eq_left]
  constructor
  · rintro ((⟨name, hname, hown⟩ | ⟨hlock, -⟩) | (⟨name, hname, -⟩ | ⟨-, rfl⟩))
    · have htext : name.text = "w" := (Option.some.inj hname).symm
      have hbytes : name.fileBytes = Utf8.encode "w.wallet" := by
        rw [WalletName.fileBytes, WalletName.fileName, htext]
        rfl
      rcases hown with rfl | rfl
      · exact .inl hbytes
      · rw [hbytes]
        exact .inr (.inl rfl)
    · exact absurd hlock (by simp)
    · exact absurd hname (by simp [Command.mutated?])
    · exact .inr (.inr rfl)
  · have hname : WalletName.accepts "w" = true := by decide
    rintro (rfl | rfl | rfl)
    · exact .inl (.inl ⟨⟨"w", hname⟩, rfl, .inl rfl⟩)
    · exact .inl (.inl ⟨⟨"w", hname⟩, rfl, .inr rfl⟩)
    · exact .inr (.inr ⟨rfl, rfl⟩)

end Plain

end Manager

end Custody
