import Custody.Proofs.Manager.Markers
import Custody.Proofs.Site.Steps
import Custody.Proofs.Suite.Plain

set_option autoImplicit false

/-! # One lock for each directory

Managers and bare lock holders take directories and give them up in any order, while wallets are
worked with. The locks that they hold (`Site.liveLocks`) stay together with the markers on the disk
through every step (`Site.Guarded.step`), and what is to be expected of directory locks holds at any
time: `Site.Exclusive`. -/

namespace Custody

open DirectoryLock (Held IsOf Markable markerPath)

/-! ## Runs -/

/-- Wallets that are handed over to a manager are as stated. -/
def SiteStep.Hands {W : Type} (P : W → Prop) : SiteStep W → Prop
  | .command _ asked => asked.Hands P
  | _ => True

namespace Site

section Locks

variable {W : Type} {site : Site W} {name : String} {m : Manager W}

/-- The locks that are held, by bare holders and by managers. -/
def liveLocks (site : Site W) : List DirectoryLock :=
  site.locks.map Prod.snd ++ site.managers.filterMap fun entry => entry.2.dirLock

/-- The locks that are held by others than the manager of a name. -/
def otherLocks (site : Site W) (name : String) : List DirectoryLock :=
  site.locks.map Prod.snd ++ (without name site.managers).filterMap fun entry => entry.2.dirLock

theorem perm_putManager (site : Site W) (name : String) (m : Manager W) :
    (site.putManager name m).liveLocks.Perm (m.dirLock.toList ++ site.otherLocks name) := by
  unfold liveLocks otherLocks putManager
  rw [List.filterMap_cons]
  cases m.dirLock with
  | none => exact .refl _
  | some lock => exact List.perm_middle

theorem perm_liveLocks (h : site.manager? name = some m)
    (hnodup : (site.managers.map Prod.fst).Nodup) :
    site.liveLocks.Perm (m.dirLock.toList ++ site.otherLocks name) :=
  (((perm_of_lookup h hnodup).filterMap _).append_left _).trans (perm_putManager site name m)

theorem liveLocks_of_none (h : site.manager? name = none) :
    site.liveLocks = site.otherLocks name := by
  unfold otherLocks
  rw [without_eq_self (notMem_of_lookup h)]
  rfl

/-! ## Bare holders -/

theorem locks_release (site : Site W) (name : String) :
    (site.release name).locks = without name site.locks := by
  unfold release
  cases hlock : site.lock? name with
  | none => exact (without_eq_self (notMem_of_lookup hlock)).symm
  | some lock => rfl

theorem managers_release (site : Site W) (name : String) :
    (site.release name).managers = site.managers := by
  unfold release
  cases site.lock? name <;> rfl

/-- The lock of a holder, and all others. -/
theorem perm_of_lock {lock : DirectoryLock} (h : site.lock? name = some lock)
    (hnodup : (site.locks.map Prod.fst).Nodup) :
    site.liveLocks.Perm (lock :: (site.release name).liveLocks) := by
  unfold liveLocks
  rw [locks_release, managers_release]
  exact ((perm_of_lookup h hnodup).map Prod.snd).append_right _

/-- A lock that is given back is not live any more, and all others are, also those that are about to
    be put down. -/
theorem held_release {locks : List DirectoryLock}
    (h : Held (locks ++ site.liveLocks) site.world.disk)
    (hnodup : (site.locks.map Prod.fst).Nodup) (name : String) :
    Held (locks ++ (site.release name).liveLocks) (site.release name).world.disk := by
  cases hlock : site.lock? name with
  | none =>
    unfold release
    rw [hlock]
    exact h
  | some lock =>
    have hperm := ((perm_of_lock hlock hnodup).append_left locks).trans List.perm_middle
    have hworld : (site.release name).world = (lock.release.outcome site.world).2 := by
      unfold release
      rw [hlock]
    rw [hworld]
    exact (h.perm hperm).of_release

end Locks

/-! ## What every step keeps -/

section Parties

variable [Suite] {B : Type} [Backend B] {site : Site (SoftWallet ⊕ B)} {name : String}
  {m : Manager (SoftWallet ⊕ B)}

/-- Names are those of one manager and one holder, every manager is tidy, and the live locks and the
    disk belong together. -/
structure Guarded (site : Site (SoftWallet ⊕ B)) : Prop where
  managers_nodup : (site.managers.map Prod.fst).Nodup
  locks_nodup : (site.locks.map Prod.fst).Nodup
  tidy : ∀ entry ∈ site.managers, entry.2.Tidy
  held : Held site.liveLocks site.world.disk

namespace Guarded

theorem empty {world : World} (hsound : world.disk.Sound) (hlocked : world.disk.locked = []) :
    (Site.empty world : Site (SoftWallet ⊕ B)).Guarded :=
  ⟨List.nodup_nil, List.nodup_nil, by simp [Site.empty], .nil hsound hlocked⟩

theorem tidy_of_manager (h : site.Guarded) (hm : site.manager? name = some m) : m.Tidy :=
  h.tidy _ ((perm_of_lookup hm h.managers_nodup).mem_iff.2 List.mem_cons_self)

theorem held_of_manager (h : site.Guarded) (hm : site.manager? name = some m) :
    Held (m.dirLock.toList ++ site.otherLocks name) site.world.disk :=
  h.held.perm (perm_liveLocks hm h.managers_nodup)

/-- The manager of a name becomes another one, or a new one, in another world. -/
theorem putManager (h : site.Guarded) {world : World} (hm : m.Tidy)
    (hheld : Held (m.dirLock.toList ++ site.otherLocks name) world.disk) :
    ({ site with world }.putManager name m).Guarded := by
  refine ⟨nodup_cons_without h.managers_nodup m, h.locks_nodup, ?_, ?_⟩
  · intro entry hentry
    rcases List.mem_cons.1 hentry with rfl | hentry
    · exact hm
    · exact h.tidy entry (List.mem_filter.1 hentry).1
  · exact hheld.perm (perm_putManager { site with world } name m).symm

theorem drop (h : site.Guarded) (name : String) : (site.drop name).Guarded := by
  unfold Site.drop
  cases hm : site.manager? name with
  | none => exact h
  | some m =>
    refine ⟨nodup_without h.managers_nodup, h.locks_nodup, ?_, ?_⟩
    · intro entry hentry
      exact h.tidy entry (List.mem_filter.1 hentry).1
    · exact Manager.held_drop (h.held_of_manager hm)

theorem start (h : site.Guarded) (name : String) (config : Config) (clock : Clock) :
    (site.start name config clock).2.Guarded := by
  have hdropped := h.drop name
  have hheld := Manager.held_start (W := SoftWallet ⊕ B) hdropped.held config clock
  unfold Site.start
  dsimp only
  rcases hstart : (Manager.start config clock).outcome (site.drop name).world
    with ⟨error | m, world⟩
  · rw [hstart] at hheld
    exact ⟨hdropped.managers_nodup, hdropped.locks_nodup, hdropped.tidy, hheld⟩
  · rw [hstart] at hheld
    obtain ⟨hm, hfree⟩ := Manager.tidy_start hstart
    refine hdropped.putManager hm ?_
    rw [hfree, ← liveLocks_of_none (manager?_drop site name)]
    exact hheld

theorem command (h : site.Guarded) (name : String) {asked : Command (SoftWallet ⊕ B)}
    (hhands : asked.Hands Backend.Harmless) : (site.step (.command name asked)).Guarded := by
  cases hm : site.manager? name with
  | none =>
    rw [step_command_of_none hm]
    exact h
  | some m =>
    have hheld := h.held_of_manager hm
    change Held ((atWork m site.world).manager.dirLock.toList ++ _)
      (atWork m site.world).world.disk at hheld
    obtain ⟨htidy, hheld'⟩ := Command.held_perform hheld (h.tidy_of_manager hm) hhands
    rw [step_command hm]
    exact h.putManager htidy hheld'

theorem release (h : site.Guarded) (name : String) : (site.release name).Guarded := by
  refine ⟨?_, ?_, ?_, @held_release _ _ [] h.held h.locks_nodup name⟩
  · rw [managers_release]
    exact h.managers_nodup
  · rw [locks_release]
    exact nodup_without h.locks_nodup
  · rw [managers_release]
    exact h.tidy

theorem acquire (h : site.Guarded) (name : String) (dir : Path) :
    (site.acquire name dir).2.Guarded := by
  unfold Site.acquire
  rcases hacquire : (DirectoryLock.acquire dir).outcome site.world with ⟨error | lock, world⟩
  · exact ⟨h.managers_nodup, h.locks_nodup, h.tidy, h.held.of_acquire_error hacquire⟩
  · -- the new lock is there before the holder's earlier one is given back
    have hheld : Held ([lock] ++ { site with world }.liveLocks) world.disk :=
      h.held.of_acquire_ok hacquire
    dsimp only
    refine ⟨?_, ?_, ?_, held_release hheld h.locks_nodup name⟩
    · rw [managers_release]
      exact h.managers_nodup
    · rw [locks_release]
      exact nodup_cons_without h.locks_nodup lock
    · rw [managers_release]
      exact h.tidy

theorem step (h : site.Guarded) {step : SiteStep (SoftWallet ⊕ B)}
    (hstep : step.Hands Backend.Harmless) : (site.step step).Guarded := by
  cases step with
  | start name config clock => exact h.start name config clock
  | drop name => exact h.drop name
  | command name asked => exact h.command name hstep
  | acquire name dir => exact h.acquire name dir
  | release name => exact h.release name
  | setTime clock time => exact ⟨h.managers_nodup, h.locks_nodup, h.tidy, h.held⟩

theorem run (h : site.Guarded) {steps : List (SiteStep (SoftWallet ⊕ B))}
    (hsteps : ∀ step ∈ steps, step.Hands Backend.Harmless) : (site.run steps).Guarded := by
  induction steps generalizing site with
  | nil => exact h
  | cons step rest ih =>
    rw [List.forall_mem_cons] at hsteps
    exact ih (h.step hsteps.1) hsteps.2

end Guarded

/-! ## What is to be expected of directory locks -/

/-- What is to be expected of the directory locks of a site. A directory is what a path leads to, so
    that the same one may be named by different paths. -/
structure Exclusive (site : Site (SoftWallet ⊕ B)) : Prop where
  /-- Every live lock is that of a directory. -/
  placed : ∀ lock ∈ site.liveLocks, ∃ location, lock.IsOf site.world.disk location
  /-- No two live locks are those of one directory. -/
  single : site.liveLocks.Pairwise fun lock other =>
    ∀ location, ¬ (lock.IsOf site.world.disk location ∧ other.IsOf site.world.disk location)
  /-- The marker of a live lock is there. -/
  inPlace : ∀ lock ∈ site.liveLocks, lock.InPlace site.world.disk
  /-- The marker is gone once a bare holder has given the lock back, unless it cannot be removed. -/
  released : ∀ holder lock, site.lock? holder = some lock →
    site.world.faults site.world.steps .unlinkMarker = none →
    (site.release holder).world.disk.inspect lock.marker = .error .notFound
  /-- It is gone as well once a manager that has the lock is dropped. -/
  dropped : ∀ name manager lock, site.manager? name = some manager → manager.dirLock = some lock →
    site.world.faults site.world.steps .unlinkMarker = none →
    (site.drop name).world.disk.inspect lock.marker = .error .notFound
  /-- A bare holder can lock a directory that is there just when no live lock is its own, as far as
      the system lets it be marked. -/
  acquires : ∀ holder dir location, site.world.disk.walk dir = .ok location →
    ((site.acquire holder dir).1.isOk = true ↔
      (∀ lock ∈ site.liveLocks, ¬ lock.IsOf site.world.disk location) ∧
        Markable site.world dir location)
  /-- So can a manager that has no lock yet. -/
  initializes : ∀ name manager location, site.manager? name = some manager →
    manager.dirLock = none → site.world.disk.walk manager.dir = .ok location →
    ((∃ events site', site.command name .initializeLock = some ((.ok .done, events), site')) ↔
      (∀ lock ∈ site.liveLocks, ¬ lock.IsOf site.world.disk location) ∧
        Markable site.world manager.dir location)
  /-- A bare holder that cannot lock a directory leaves the live locks and their markers in
      place. -/
  acquire_failed : ∀ holder dir error site', site.acquire holder dir = (.error error, site') →
    ∀ lock ∈ site.liveLocks, lock ∈ site'.liveLocks ∧ lock.InPlace site'.world.disk
  /-- So does a manager. -/
  initialize_failed : ∀ name error events site',
    site.command name .initializeLock = some ((.error error, events), site') →
    ∀ lock ∈ site.liveLocks, lock ∈ site'.liveLocks ∧ lock.InPlace site'.world.disk
  /-- A manager that has a lock has the one of its directory. -/
  paired : ∀ name manager lock, site.manager? name = some manager → manager.dirLock = some lock →
    ∃ location, site.world.disk.walk manager.dir = .ok location ∧
      lock.IsOf site.world.disk location
  /-- It changes nothing when it is told to lock its directory again. -/
  again : ∀ name manager, site.manager? name = some manager → manager.dirLock.isSome = true →
    ∃ site', site.command name .initializeLock = some ((.ok .done, []), site') ∧ site.Same site'
  /-- It changes nothing when it is told to use another directory, which is refused. -/
  unmoved : ∀ name manager dir, site.manager? name = some manager →
    manager.dirLock.isSome = true → ∃ site', site.command name (.setDir dir) =
      some ((.error (.directoryLockUnavailable (markerPath manager.dir) .heldHere), []), site') ∧
        site.Same site'

namespace Guarded

theorem inspect_release (h : site.Guarded) {holder : String} {lock : DirectoryLock}
    (hlock : site.lock? holder = some lock)
    (hcalm : site.world.faults site.world.steps .unlinkMarker = none) :
    (site.release holder).world.disk.inspect lock.marker = .error .notFound := by
  have hheld := (h.held.perm (perm_of_lock hlock h.locks_nodup)).inspect_release hcalm
  unfold Site.release
  rw [hlock]
  exact hheld

theorem inspect_drop (h : site.Guarded) {lock : DirectoryLock}
    (hm : site.manager? name = some m) (hlock : m.dirLock = some lock)
    (hcalm : site.world.faults site.world.steps .unlinkMarker = none) :
    (site.drop name).world.disk.inspect lock.marker = .error .notFound := by
  have hheld := h.held_of_manager hm
  rw [hlock] at hheld
  unfold Site.drop
  rw [hm]
  simp only [Manager.drop, hlock]
  exact Held.inspect_release hheld hcalm

/-- A directory that is there is locked by a bare holder just when no live lock is its own. -/
theorem isOk_acquire (h : site.Guarded) (holder : String) {dir : Path} {location : Location}
    (hwalk : site.world.disk.walk dir = .ok location) :
    (site.acquire holder dir).1.isOk = true ↔
      (∀ lock ∈ site.liveLocks, ¬ lock.IsOf site.world.disk location) ∧
        Markable site.world dir location := by
  rw [← h.held.isOk_acquire hwalk]
  unfold Site.acquire
  rcases (DirectoryLock.acquire dir).outcome site.world with ⟨error | lock, world⟩ <;> rfl

/-- And so it is by a manager that has no lock yet. -/
theorem exists_initializeLock (h : site.Guarded) (hm : site.manager? name = some m)
    (hfree : m.dirLock = none) {location : Location}
    (hwalk : site.world.disk.walk m.dir = .ok location) :
    (∃ events site', site.command name .initializeLock = some ((.ok .done, events), site')) ↔
      (∀ lock ∈ site.liveLocks, ¬ lock.IsOf site.world.disk location) ∧
        Markable site.world m.dir location := by
  rw [← h.held.isOk_acquire hwalk, command_eq hm]
  have hlocking := Command.locking_initializeLock (atWork m site.world)
  generalize (Command.perform .initializeLock).outcome (atWork m site.world) = done at hlocking ⊢
  cases hlocking with
  | held hhas => exact absurd hhas (by simp [atWork, hfree])
  | failed _ hacquire =>
    rw [show (DirectoryLock.acquire m.dir).outcome site.world = _ from hacquire]
    simp
  | locked _ hacquire =>
    rw [show (DirectoryLock.acquire m.dir).outcome site.world = _ from hacquire]
    simp

theorem of_acquire_error (h : site.Guarded) {holder : String} {dir : Path} {error : Error}
    {site' : Site (SoftWallet ⊕ B)} (hacquire : site.acquire holder dir = (.error error, site')) :
    site'.Guarded ∧ site'.liveLocks = site.liveLocks := by
  have hguarded := h.acquire holder dir
  rw [hacquire] at hguarded
  refine ⟨hguarded, ?_⟩
  unfold Site.acquire at hacquire
  rcases hdone : (DirectoryLock.acquire dir).outcome site.world with ⟨error' | lock, world⟩
  · rw [hdone] at hacquire
    cases hacquire
    rfl
  · rw [hdone] at hacquire
    exact absurd (congrArg Prod.fst hacquire) (by simp)

theorem of_initializeLock_error (h : site.Guarded) {error : Error} {events : List Event}
    {site' : Site (SoftWallet ⊕ B)}
    (hcommand : site.command name .initializeLock = some ((.error error, events), site')) :
    site'.Guarded ∧ site'.liveLocks.Perm site.liveLocks := by
  cases hm : site.manager? name with
  | none =>
    rw [command_eq_none hm] at hcommand
    exact absurd hcommand (by simp)
  | some m =>
    have hguarded : (site.step (.command name .initializeLock)).Guarded := h.command name trivial
    simp only [Site.step, hcommand] at hguarded
    refine ⟨hguarded, ?_⟩
    rw [command_eq hm] at hcommand
    have hlocking := Command.locking_initializeLock (atWork m site.world)
    generalize (Command.perform .initializeLock).outcome (atWork m site.world) = done
      at hlocking hcommand
    cases hlocking with
    | held hhas => exact absurd hcommand (by simp)
    | locked hfree hacquire => exact absurd hcommand (by simp)
    | failed hfree hacquire =>
      cases hcommand
      exact (perm_putManager _ name m).trans (perm_liveLocks hm h.managers_nodup).symm

/-- A manager that has a lock is left alone by what is about its directory. -/
theorem exists_same (hm : site.manager? name = some m) {asked : Command (SoftWallet ⊕ B)}
    {answer : Except Error Reply}
    (hasked : asked.perform.outcome (atWork m site.world) = (answer, atWork m site.world)) :
    ∃ site', site.command name asked = some ((answer, []), site') ∧ site.Same site' := by
  rw [command_eq hm, hasked]
  exact ⟨_, rfl, same_putManager hm⟩

theorem exclusive (h : site.Guarded) : site.Exclusive where
  placed lock hmem := h.held.exists_isOf hmem
  single := h.held.pairwise
  inPlace lock hmem := h.held.inPlace hmem
  released holder lock hlock hcalm := h.inspect_release hlock hcalm
  dropped name manager lock hm hlock hcalm := h.inspect_drop hm hlock hcalm
  acquires holder dir location hwalk := h.isOk_acquire holder hwalk
  initializes name manager location hm hfree hwalk := h.exists_initializeLock hm hfree hwalk
  acquire_failed := by
    intro holder dir error site' hacquire lock hmem
    obtain ⟨h', hlocks⟩ := h.of_acquire_error hacquire
    rw [← hlocks] at hmem
    exact ⟨hmem, h'.held.inPlace hmem⟩
  initialize_failed := by
    intro name error events site' hcommand lock hmem
    obtain ⟨h', hperm⟩ := h.of_initializeLock_error hcommand
    rw [← hperm.mem_iff] at hmem
    exact ⟨hmem, h'.held.inPlace hmem⟩
  paired := by
    intro name manager lock hm hlock
    have hheld := h.held_of_manager hm
    rw [hlock] at hheld
    obtain ⟨location, hmarks⟩ := hheld.marks lock List.mem_cons_self
    exact ⟨location, hmarks.walk_eq ((h.tidy_of_manager hm).marker_eq lock hlock), hmarks.isOf⟩
  again := by
    intro name manager hm hhas
    refine exists_same hm ?_
    have hlocking := Command.locking_initializeLock (atWork manager site.world)
    generalize (Command.perform .initializeLock).outcome (atWork manager site.world) = done
      at hlocking ⊢
    cases hlocking with
    | held => rfl
    | failed hfree => exact absurd hfree (Option.isSome_iff_ne_none.1 hhas)
    | locked hfree => exact absurd hfree (Option.isSome_iff_ne_none.1 hhas)
  unmoved := by
    intro name manager dir hm hhas
    refine exists_same hm ?_
    have hmoving := Command.moving_setDir dir (atWork manager site.world)
    generalize (Command.perform (.setDir dir)).outcome (atWork manager site.world) = done
      at hmoving ⊢
    cases hmoving with
    | refused => rfl
    | failed hfree => exact absurd hfree (Option.isSome_iff_ne_none.1 hhas)
    | moved hfree => exact absurd hfree (Option.isSome_iff_ne_none.1 hhas)

end Guarded

/-- Whatever managers and bare lock holders do one after the other, starting on a disk on which
    nothing is locked, and wherever they fail: a directory is locked by one of them at most, the
    marker is there for as long as the lock is live, and it goes with it. -/
theorem locks_exclusive {world : World} (hsound : world.disk.Sound)
    (hlocked : world.disk.locked = []) {steps : List (SiteStep (SoftWallet ⊕ B))}
    (hsteps : ∀ step ∈ steps, step.Hands Backend.Harmless) :
    ((Site.empty world).run steps).Exclusive :=
  ((Guarded.empty hsound hlocked).run hsteps).exclusive

end Parties

/-! ## Two directories and three parties -/

section Plain

local instance exclusionPrimitives : Suite := Suite.plain

/-- The settings of a manager of a directory. -/
def configAt (dir : String) : Config := ⟨.ofString dir, none, .light, false⟩

/-- Two managers and a holder take each other's directories, under various names of them. -/
def contention : List (SiteStep (SoftWallet ⊕ Device)) :=
  [.start "m" (configAt "d") .manual, .command "m" .initializeLock,
    .acquire "h" (.ofString "d/."), .start "n" (configAt "e") .manual,
    .command "n" (.own "k" (.inr ⟨"p", ∅, true, fun _ => none, 0⟩)), .acquire "h" (.ofString "e"),
    .command "n" .initializeLock, .command "m" (.setDir (.ofString "e")), .release "h",
    .command "n" .initializeLock, .drop "m", .acquire "h" (.ofString "./d")]

theorem locks_exclusive_in_contention :
    ((Site.empty World.blank).run contention).Exclusive ∧
      ((Site.empty World.blank).run contention).liveLocks.map DirectoryLock.marker =
        [.ofString "./d/wallet.lock", .ofString "e/wallet.lock"] := by
  have hsteps : ∀ step ∈ contention, step.Hands Backend.Harmless := by
    unfold contention
    simp only [List.forall_mem_cons]
    exact ⟨trivial, trivial, trivial, trivial, (Device.harmless _).inr, trivial, trivial, trivial,
      trivial, trivial, trivial, trivial, by simp⟩
  exact ⟨locks_exclusive (Disk.sound_empty []) rfl hsteps, by decide +kernel⟩

/-- A directory that is there can be locked whenever no live lock is its own. -/
def AcquiredWheneverFree {W : Type} (site : Site W) : Prop :=
  ∀ holder dir location, site.world.disk.walk dir = .ok location →
    (∀ lock ∈ site.liveLocks, ¬ lock.IsOf site.world.disk location) →
    (site.acquire holder dir).1.isOk = true

theorem not_acquiredWheneverFree {W : Type} {site : Site W} (dir : Path) (location : Location)
    (hwalk : site.world.disk.walk dir = .ok location) (hnone : site.liveLocks = [])
    (hfails : (site.acquire "h" dir).1.isOk = false) : ¬ site.AcquiredWheneverFree := by
  intro h
  have hok := h "h" dir location hwalk (by simp [hnone])
  exact absurd (hok.symm.trans hfails) (by simp)

/-- The site of a manager of the directory `d`, in a world in which the steps of a kind fail. -/
def faulty (failing : IoStep → Bool) : Site (SoftWallet ⊕ Device) :=
  let faults (_ : Nat) (step : IoStep) : Option Fault :=
    if failing step then some ⟨.deviceFailure, 0⟩ else none
  (Site.empty { World.blank with faults }).run [.start "m" (configAt "d") .manual]

/-- A long spelling of the directory `d`, which is too long once the marker's name is added. -/
def longPath : Path := ⟨Utf8.encode "d/" ++ (List.replicate 2042 (Utf8.encode "./")).flatten⟩

/-- A wallet whose file would be the marker of the directory `d`. -/
def misplaced : SoftWallet :=
  let prepare : SoftWallet.Operation Unit := do
    SoftWallet.setPassword "p"
    SoftWallet.unlock "p"
  (prepare.outcome (.new (.ofString "d/wallet.lock") .light, World.blank)).2.1

/-- What exclusive locks rest on. That a directory is free does not mean that it can be locked:
    another one may have been made in the marker's place, the path may be too long, and the marker
    may fail to be opened or looked at. A marker may fail to be removed, and then outlives its lock.
    And if a wallet is handed over whose file is the marker, saving it lets in a second holder. -/
theorem limits_of_exclusion :
    ¬ ((faulty fun _ => false).step
      (.start "n" (configAt "d/wallet.lock") .manual)).AcquiredWheneverFree ∧
    ¬ (faulty fun _ => false).AcquiredWheneverFree ∧
    ¬ (faulty (· = .openMarker)).AcquiredWheneverFree ∧
    ¬ (faulty (· = .inspect)).AcquiredWheneverFree ∧
    (((faulty (· = .unlinkMarker)).step (.acquire "h" (.ofString "d"))).release
      "h").world.disk.read (.ofString "d/wallet.lock") = .ok [] ∧
    ((faulty fun _ => false).run [.command "m" .initializeLock,
      .command "m" (.own "w" (.inl misplaced)), .command "m" (.createKey "w" "ed25519"),
      .acquire "h" (.ofString "d")]).liveLocks.map DirectoryLock.marker =
        [.ofString "d/wallet.lock", .ofString "d/wallet.lock"] := by
  refine ⟨?_, ?_, ?_, ?_, by decide +kernel, by decide +kernel⟩
  · exact not_acquiredWheneverFree (.ofString "d") [Utf8.encode "d"] (by decide +kernel)
      (by decide +kernel) (by decide +kernel)
  · exact not_acquiredWheneverFree longPath [Utf8.encode "d"] (by decide +kernel)
      (by decide +kernel) (by decide +kernel)
  · exact not_acquiredWheneverFree (.ofString "d") [Utf8.encode "d"] (by decide +kernel)
      (by decide +kernel) (by decide +kernel)
  · exact not_acquiredWheneverFree (.ofString "d") [Utf8.encode "d"] (by decide +kernel)
      (by decide +kernel) (by decide +kernel)

end Plain

end Site

end Custody
