import Custody.DirectoryLock
import Custody.Proofs.Disk.Identity

set_option autoImplicit false

/-! # Locks on directories

Live locks and the disk belong together: each lock is held on the file that lies as the marker in
its directory, and no other file is locked (`DirectoryLock.Held`). Acquiring and releasing keep it
so, as does everything that leaves the markers where they are, and it follows that a directory can
be locked just when none of the live locks is that of the directory (`Held.isOk_acquire`). -/

namespace Custody.DirectoryLock

/-! ## Markers -/

/-- The name of a marker. -/
def markerName : Bytes := Utf8.encode "wallet.lock"

theorem isFileName_markerName : Path.IsFileName markerName :=
  Path.isFileName_of_length (by decide) (by decide) (by decide)

theorem markerPath_eq (dir : Path) : markerPath dir = dir.join ⟨markerName⟩ := rfl

/-- The lock is the one of the directory at the location, however the path of that is written. -/
def IsOf (lock : DirectoryLock) (disk : Disk) (location : Location) : Prop :=
  ∃ dir, lock.marker = markerPath dir ∧ disk.walk dir = .ok location

/-- The marker of the lock lies in the directory at the location, and is the file that is locked. -/
structure Marks (lock : DirectoryLock) (disk : Disk) (location : Location) : Prop where
  exists_dir : ∃ dir, lock.marker = markerPath dir ∧ disk.Places dir markerName location
  exists_file : ∃ file, disk.node? (location ++ [markerName]) = some (.file file) ∧
    file.id = lock.file

section Marks

variable {lock other : DirectoryLock} {disk disk' : Disk} {location location' : Location}

theorem Marks.isOf (h : lock.Marks disk location) : lock.IsOf disk location := by
  obtain ⟨dir, hmarker, hplaces⟩ := h.exists_dir
  exact ⟨dir, hmarker, hplaces.walk_eq⟩

/-- Every path that leads to the marker leads through the directory. -/
theorem Marks.walk_eq (h : lock.Marks disk location) {dir : Path}
    (hmarker : lock.marker = markerPath dir) : disk.walk dir = .ok location := by
  obtain ⟨dir', hmarker', hplaces⟩ := h.exists_dir
  rw [Disk.walk_eq_of_join_eq isFileName_markerName (hmarker.symm.trans hmarker'),
    hplaces.walk_eq]

/-- A lock is that of one directory. -/
theorem Marks.location_eq (h : lock.Marks disk location) (hof : lock.IsOf disk location') :
    location' = location := by
  obtain ⟨dir, hmarker, hwalk⟩ := hof
  rw [h.walk_eq hmarker] at hwalk
  exact (Except.ok.inj hwalk).symm

/-- Two locks on one marker are held on one file. -/
theorem Marks.file_eq (h : lock.Marks disk location) (h' : other.Marks disk location) :
    lock.file = other.file := by
  obtain ⟨file, hfile, hid⟩ := h.exists_file
  obtain ⟨file', hfile', hid'⟩ := h'.exists_file
  rw [hfile] at hfile'
  cases hfile'
  exact hid.symm.trans hid'

/-- One file is one marker. -/
theorem Marks.eq_of_file_eq (hsound : disk.Sound) (h : lock.Marks disk location)
    (h' : other.Marks disk location') (hfile : lock.file = other.file) : location = location' := by
  obtain ⟨file, hnode, hid⟩ := h.exists_file
  obtain ⟨file', hnode', hid'⟩ := h'.exists_file
  have hplace := hsound.unique _ _ _ _ hnode hnode' (by rw [hid, hid', hfile])
  exact List.append_cancel_right hplace

theorem Marks.inspect_eq (h : lock.Marks disk location) :
    ∃ file, disk.inspect lock.marker = .ok (.file file) ∧ file.id = lock.file := by
  obtain ⟨dir, hmarker, hplaces⟩ := h.exists_dir
  obtain ⟨file, hfile, hid⟩ := h.exists_file
  rw [hmarker, markerPath_eq]
  exact ⟨file, (Disk.inspect_join isFileName_markerName).2 ⟨location, hplaces, hfile⟩, hid⟩

/-- The directory is still there, and so is the file in its place. -/
theorem Marks.of_kept (h : lock.Marks disk location) (hkept : disk.Kept disk')
    (hremains : Disk.Remains (location ++ [markerName]) disk disk') :
    lock.Marks disk' location := by
  obtain ⟨dir, hmarker, hplaces⟩ := h.exists_dir
  obtain ⟨file, hfile, hid⟩ := h.exists_file
  obtain ⟨file', hfile', hid'⟩ := hremains file hfile
  exact ⟨⟨dir, hmarker, hkept.places hplaces⟩, file', hfile', hid'.trans hid⟩

/-- Where markers lie does not depend on what is locked. -/
theorem Marks.of_nodes_eq (h : lock.Marks disk location) (hnodes : disk'.nodes = disk.nodes)
    (hhome : disk'.home = disk.home) : lock.Marks disk' location := by
  have hnode : ∀ place, disk'.node? place = disk.node? place := by
    intro place
    unfold Disk.node?
    rw [hnodes]
  refine h.of_kept ⟨hhome, fun place hplace => (hnode place).trans hplace⟩ ?_
  intro file hfile
  exact ⟨file, (hnode _).trans hfile, rfl⟩

end Marks

/-- What can be seen at the lock's marker is the file that the lock is held on. -/
def InPlace (lock : DirectoryLock) (disk : Disk) : Prop :=
  ∃ file, disk.inspect lock.marker = .ok (.file file) ∧ file.id = lock.file ∧
    disk.isLocked lock.file = true

/-! ## What acquiring and releasing can do -/

/-- What acquiring asks of the system: the path of the marker can be handed to it, no directory lies
    in the marker's place, and neither opening the marker nor looking at it fails. -/
structure Markable (world : World) (dir : Path) (location : Location) : Prop where
  refusal_eq : Disk.refusal? (markerPath dir) = none
  free : world.disk.IsFree (location ++ [markerName])
  opens : world.faults world.steps .openMarker = none
  looks : world.faults (world.steps + 1) .inspect = none

section Acquire

variable {world world' : World} {dir : Path} {location : Location}

/-- How acquiring ends. -/
inductive Acquiring (dir : Path) (world : World) : Except Error DirectoryLock × World → Prop
  | unopened {error : IoError} {world' : World}
    (hfault : world.faults world.steps .openMarker ≠ none ∨
      ∃ error, world.disk.create (markerPath dir) markerMode = .error error)
    (hdisk : world'.disk = world.disk) :
    Acquiring dir world
      (.error (.directoryLockUnavailable (markerPath dir) (.marker error)), world')
  | contended {id : FileId} {world' : World}
    (hcreate : world.disk.create (markerPath dir) markerMode = .ok (id, world'.disk))
    (hlocked : id ∈ world'.disk.locked) :
    Acquiring dir world
      (.error (.directoryLockUnavailable (markerPath dir) (.contended .wouldBlock)), world')
  | unseen {id : FileId} {world' : World}
    (hcreate : world.disk.create (markerPath dir) markerMode = .ok (id, world'.disk))
    (hfault : world.faults (world.steps + 1) .inspect ≠ none) :
    Acquiring dir world (.error (.directoryLockUnavailable (markerPath dir) .replaced), world')
  | acquired {id : FileId} {disk : Disk} {world' : World}
    (hopen : world.faults world.steps .openMarker = none)
    (hcreate : world.disk.create (markerPath dir) markerMode = .ok (id, disk))
    (hfree : id ∉ disk.locked) (hlook : world.faults (world.steps + 1) .inspect = none)
    (hdisk : world'.disk = { disk with locked := id :: disk.locked }) :
    Acquiring dir world (.ok ⟨markerPath dir, id⟩, world')

/-- A marker that has been opened lies in its directory. -/
theorem marks_of_create {disk disk' : Disk} {mode : Nat} {id : FileId}
    (hcreate : disk.create (markerPath dir) mode = .ok (id, disk')) :
    ∃ location, disk.Places dir markerName location ∧
      disk.IsFree (location ++ [markerName]) ∧ Marks ⟨markerPath dir, id⟩ disk' location := by
  obtain ⟨file, rfl, hwrote⟩ := Disk.create_join isFileName_markerName hcreate
  have hkept := (Disk.leaves_create hcreate : Disk.Leaves markerName disk disk').kept
  have hseen := hwrote.inspect_eq isFileName_markerName
  obtain ⟨location, hplaces, hfree, -⟩ := hwrote
  obtain ⟨location', hplaces', hnode⟩ := (Disk.inspect_join isFileName_markerName).1 hseen
  obtain rfl : location' = location :=
    Except.ok.inj (hplaces'.walk_eq.symm.trans (hkept.walk hplaces.walk_eq))
  exact ⟨location', hplaces, hfree, ⟨dir, rfl, hplaces'⟩, file, hnode, rfl⟩

theorem outcome_isStillThere (marker : Path) (id : FileId) (world : World) :
    (isStillThere marker id).outcome world =
      (.ok (match ((World.observe .inspect (·.inspect marker)).outcome world).1 with
        | .ok (.file found) => found.id = id
        | _ => false), { world with steps := world.steps + 1 }) := by
  have hworld : ((World.observe .inspect (·.inspect marker)).outcome world).2 =
      { world with steps := world.steps + 1 } := by rw [World.outcome_observe]
  unfold isStillThere
  rw [Act.outcome_bind, Act.outcome_settled]
  generalize (World.observe .inspect (·.inspect marker)).outcome world = seen at hworld ⊢
  obtain ⟨result, world'⟩ := seen
  obtain rfl : world' = { world with steps := world.steps + 1 } := hworld
  match result with
  | .error _ => rfl
  | .ok .directory => rfl
  | .ok (.file _) => rfl

/-- A file that is locked and released again leaves the locks as they were. -/
theorem release_lock {disk : Disk} {id : FileId} (h : id ∉ disk.locked) :
    ({ disk with locked := id :: disk.locked } : Disk).release id = disk := by
  have hfilter : disk.locked.filter (· != id) = disk.locked := by
    rw [List.filter_eq_self]
    intro other hother
    simpa using fun heq : other = id => h (heq ▸ hother)
  unfold Disk.release
  rw [List.filter_cons_of_neg (by simp), hfilter]

theorem acquire_spec (dir : Path) (world : World) :
    Acquiring dir world ((acquire dir).outcome world) := by
  unfold acquire
  dsimp only
  rw [Act.outcome_bind, Act.outcome_mapError, World.outcome_attempt]
  cases hopen : world.faults world.steps .openMarker with
  | some fault => exact .unopened (.inl (by simp [hopen])) rfl
  | none =>
    cases hcreate : world.disk.create (markerPath dir) markerMode with
    | error error => exact .unopened (.inr ⟨error, hcreate⟩) rfl
    | ok created =>
      obtain ⟨id, disk⟩ := created
      simp only [Except.mapError, Act.outcome_bind, Act.outcome_get, Disk.tryLock, Disk.isLocked,
        List.contains_eq_mem, decide_eq_true_eq]
      by_cases hlocked : id ∈ disk.locked
      · rw [if_pos hlocked]
        exact .contended hcreate hlocked
      · rw [if_neg hlocked]
        simp only [Act.outcome_modify, Act.outcome_bind, outcome_isStillThere,
          World.outcome_observe]
        cases hlook : world.faults (world.steps + 1) .inspect with
        | some fault =>
          have hreleased : world.disk.create (markerPath dir) markerMode =
              .ok (id, ({ disk with locked := id :: disk.locked } : Disk).release id) := by
            rw [release_lock hlocked, hcreate]
          exact .unseen hreleased (by simp [hlook])
        | none =>
          -- the marker that has just been opened is seen where it was opened
          obtain ⟨location, -, -, hmarks⟩ := marks_of_create hcreate
          obtain ⟨file, hseen, hid⟩ := hmarks.inspect_eq
          have hinspect : ({ disk with locked := id :: disk.locked } : Disk).inspect
              (markerPath dir) = .ok (.file file) := hseen
          simp only [hinspect, hid]
          exact .acquired hopen hcreate hlocked hlook rfl

theorem marker_eq_of_acquire {lock : DirectoryLock}
    (hacquire : (acquire dir).outcome world = (.ok lock, world')) :
    lock.marker = markerPath dir := by
  have hspec := acquire_spec dir world
  rw [hacquire] at hspec
  cases hspec with
  | acquired => rfl

end Acquire

/-- What releasing a lock does to the disk: the marker is taken away, unless that fails as planned,
    and then the lock. -/
theorem disk_release {lock : DirectoryLock} {location : Location} {world : World}
    (h : lock.Marks world.disk location) : (lock.release.outcome world).2.disk =
      (match world.faults world.steps .unlinkMarker with
        | some _ => world.disk
        | none => world.disk.erase (location ++ [markerName])).release lock.file := by
  obtain ⟨dir, hmarker, hplaces⟩ := h.exists_dir
  obtain ⟨file, hfile, -⟩ := h.exists_file
  have hunlink := Disk.unlink_join isFileName_markerName hplaces hfile
  rw [← markerPath_eq, ← hmarker] at hunlink
  unfold release World.change
  rw [Act.outcome_bind, Act.outcome_settled, World.outcome_attempt]
  cases world.faults world.steps .unlinkMarker with
  | some fault => rfl
  | none =>
    simp only [hunlink]
    rfl

/-! ## Live locks -/

/-- The live locks and the disk belong together: each lock is held on its marker, no two on the same
    one, and no other file is locked. -/
structure Held (locks : List DirectoryLock) (disk : Disk) : Prop where
  sound : disk.Sound
  mem_locked : ∀ id, id ∈ disk.locked ↔ id ∈ locks.map file
  nodup : (locks.map file).Nodup
  marks : ∀ lock ∈ locks, ∃ location, lock.Marks disk location

namespace Held

variable {lock : DirectoryLock} {locks locks' : List DirectoryLock} {disk disk' : Disk}
  {world world' : World} {dir : Path} {location : Location}

theorem nil (hsound : disk.Sound) (hlocked : disk.locked = []) : Held [] disk :=
  ⟨hsound, by simp [hlocked], List.nodup_nil, by simp⟩

theorem perm (h : Held locks disk) (hperm : locks.Perm locks') : Held locks' disk := by
  have hfiles := hperm.map file
  refine ⟨h.sound, ?_, hfiles.nodup_iff.1 h.nodup, ?_⟩
  · intro id
    rw [h.mem_locked, hfiles.mem_iff]
  · intro lock hmem
    exact h.marks lock (hperm.mem_iff.2 hmem)

/-- Whatever leaves the markers where they are leaves the locks live. -/
theorem leaves (h : Held locks disk) (hleaves : Disk.Leaves markerName disk disk') :
    Held locks disk' := by
  refine ⟨hleaves.sound h.sound, ?_, h.nodup, ?_⟩
  · intro id
    rw [hleaves.locked_eq, h.mem_locked]
  · intro lock hmem
    obtain ⟨location, hmarks⟩ := h.marks lock hmem
    exact ⟨location, hmarks.of_kept hleaves.kept (hleaves.remains location)⟩

/-- No two live locks are those of one directory. -/
theorem pairwise (h : Held locks disk) : locks.Pairwise fun lock other =>
    ∀ location, ¬ (lock.IsOf disk location ∧ other.IsOf disk location) := by
  refine (List.pairwise_map.1 h.nodup).imp_of_mem ?_
  rintro lock other hlock hother hne location ⟨hof, hof'⟩
  obtain ⟨location₁, hmarks⟩ := h.marks lock hlock
  obtain ⟨location₂, hmarks'⟩ := h.marks other hother
  obtain rfl := hmarks.location_eq hof
  obtain rfl := hmarks'.location_eq hof'
  exact hne (hmarks.file_eq hmarks')

theorem exists_isOf (h : Held locks disk) (hmem : lock ∈ locks) :
    ∃ location, lock.IsOf disk location := by
  obtain ⟨location, hmarks⟩ := h.marks lock hmem
  exact ⟨location, hmarks.isOf⟩

theorem inPlace (h : Held locks disk) (hmem : lock ∈ locks) : lock.InPlace disk := by
  obtain ⟨location, hmarks⟩ := h.marks lock hmem
  obtain ⟨file, hfile, hid⟩ := hmarks.inspect_eq
  refine ⟨file, hfile, hid, ?_⟩
  simpa [Disk.isLocked] using (h.mem_locked _).2 (List.mem_map_of_mem hmem)

/-! ### Acquiring -/

theorem of_acquire_error (h : Held locks world.disk) {error : Error}
    (hacquire : (acquire dir).outcome world = (.error error, world')) :
    Held locks world'.disk := by
  have hspec := acquire_spec dir world
  rw [hacquire] at hspec
  cases hspec with
  | unopened hfault hdisk =>
    rw [hdisk]
    exact h
  | contended hcreate hlocked => exact h.leaves (Disk.leaves_create hcreate)
  | unseen hcreate hfault => exact h.leaves (Disk.leaves_create hcreate)

theorem of_acquire_ok (h : Held locks world.disk)
    (hacquire : (acquire dir).outcome world = (.ok lock, world')) :
    Held (lock :: locks) world'.disk := by
  have hspec := acquire_spec dir world
  rw [hacquire] at hspec
  cases hspec with
  | @acquired id disk _ hopen hcreate hfree hlook hdisk =>
    obtain ⟨location, -, -, hmarks⟩ := marks_of_create hcreate
    have h' := h.leaves (Disk.leaves_create hcreate)
    rw [hdisk]
    refine ⟨⟨h'.sound.fresh, h'.sound.unique⟩, ?_, ?_, ?_⟩
    · intro other
      rw [List.map_cons, List.mem_cons, List.mem_cons, h'.mem_locked]
    · rw [List.map_cons, List.nodup_cons, ← h'.mem_locked]
      exact ⟨hfree, h'.nodup⟩
    · rw [List.forall_mem_cons]
      refine ⟨⟨location, hmarks.of_nodes_eq rfl rfl⟩, ?_⟩
      intro other hmem
      obtain ⟨location', hmarks'⟩ := h'.marks other hmem
      exact ⟨location', hmarks'.of_nodes_eq rfl rfl⟩

/-- A directory that is there can be locked just when none of the live locks is its own, as far as
    the system lets it be marked. -/
theorem isOk_acquire (h : Held locks world.disk) (hwalk : world.disk.walk dir = .ok location) :
    ((acquire dir).outcome world).1.isOk = true ↔
      (∀ lock ∈ locks, ¬ lock.IsOf world.disk location) ∧ Markable world dir location := by
  have hspec := acquire_spec dir world
  generalize (acquire dir).outcome world = done at hspec ⊢
  constructor
  · intro hok
    cases hspec with
    | acquired hopen hcreate hfree hlook hdisk =>
      obtain ⟨location', hplaces, hplace, hmarks⟩ := marks_of_create hcreate
      obtain rfl : location' = location := Except.ok.inj (hplaces.walk_eq.symm.trans hwalk)
      refine ⟨?_, hplaces.refusal_eq, hplace, hopen, hlook⟩
      intro lock hmem hof
      -- the lock of the directory would be held on the very marker that has been opened
      have hleaves : Disk.Leaves markerName world.disk _ := Disk.leaves_create hcreate
      obtain ⟨location, hmarks'⟩ := h.marks lock hmem
      obtain rfl := hmarks'.location_eq hof
      have hid := hmarks.file_eq (hmarks'.of_kept hleaves.kept (hleaves.remains _))
      refine hfree ?_
      rw [hleaves.locked_eq, h.mem_locked]
      exact List.mem_map.2 ⟨lock, hmem, hid.symm⟩
    | _ => exact absurd hok (by simp)
  · rintro ⟨hnone, hmarkable⟩
    cases hspec with
    | unopened hfault hdisk =>
      rcases hfault with hfault | ⟨error, hcreate⟩
      · exact absurd hmarkable.opens hfault
      · obtain ⟨id, disk, hcreate'⟩ := Disk.exists_create_join isFileName_markerName
          ⟨hmarkable.refusal_eq, by decide, hwalk⟩ hmarkable.free markerMode
        rw [← markerPath_eq, hcreate] at hcreate'
        exact absurd hcreate' (by simp)
    | contended hcreate hlocked =>
      obtain ⟨location', hplaces, -, hmarks⟩ := marks_of_create hcreate
      obtain rfl : location' = location := Except.ok.inj (hplaces.walk_eq.symm.trans hwalk)
      have hleaves : Disk.Leaves markerName world.disk _ := Disk.leaves_create hcreate
      rw [hleaves.locked_eq, h.mem_locked] at hlocked
      obtain ⟨lock, hmem, hid⟩ := List.mem_map.1 hlocked
      -- the file that is locked is the marker of the lock, wherever that lies
      obtain ⟨location, hmarks'⟩ := h.marks lock hmem
      have hmarks'' := hmarks'.of_kept hleaves.kept (hleaves.remains _)
      obtain rfl := hmarks''.eq_of_file_eq (hleaves.sound h.sound) hmarks hid
      exact absurd hmarks'.isOf (hnone lock hmem)
    | unseen hcreate hfault => exact absurd hmarkable.looks hfault
    | acquired => rfl

/-! ### Releasing -/

theorem unlocked (h : Held (lock :: locks) disk) : Held locks (disk.release lock.file) := by
  obtain ⟨hnew, hnodup⟩ := List.nodup_cons.1 h.nodup
  refine ⟨⟨h.sound.fresh, h.sound.unique⟩, ?_, hnodup, ?_⟩
  · intro id
    unfold Disk.release
    rw [List.mem_filter, h.mem_locked, List.map_cons, List.mem_cons]
    constructor
    · rintro ⟨hid | hid, hne⟩
      · exact absurd hid (by simpa using hne)
      · exact hid
    · intro hid
      refine ⟨.inr hid, ?_⟩
      rw [bne_iff_ne]
      rintro rfl
      exact hnew hid
  · intro other hmem
    obtain ⟨location, hmarks⟩ := h.marks other (List.mem_cons_of_mem lock hmem)
    exact ⟨location, hmarks.of_nodes_eq rfl rfl⟩

theorem erased (h : Held locks disk) (hfree : disk.IsFree (location ++ [markerName]))
    (hnone : ∀ lock ∈ locks, ¬ lock.Marks disk location) :
    Held locks (disk.erase (location ++ [markerName])) := by
  refine ⟨h.sound.erase, h.mem_locked, h.nodup, ?_⟩
  intro lock hmem
  obtain ⟨location', hmarks⟩ := h.marks lock hmem
  refine ⟨location', hmarks.of_kept (.erase hfree) ?_⟩
  intro file hfile
  refine ⟨file, ?_, rfl⟩
  rwa [Disk.node?_erase_of_ne]
  intro heq
  obtain rfl := List.append_cancel_right heq
  exact hnone lock hmem hmarks

/-- A lock that is released is not live any more, and the others are. -/
theorem of_release (h : Held (lock :: locks) world.disk) :
    Held locks (lock.release.outcome world).2.disk := by
  obtain ⟨location, hmarks⟩ := h.marks lock List.mem_cons_self
  rw [disk_release hmarks]
  cases world.faults world.steps .unlinkMarker with
  | some fault => exact h.unlocked
  | none =>
    obtain ⟨file, hfile, -⟩ := hmarks.exists_file
    have hfree : world.disk.IsFree (location ++ [markerName]) := by simp [Disk.IsFree, hfile]
    refine h.unlocked.erased hfree ?_
    intro other hmem hmarks'
    have hid := hmarks.file_eq (hmarks'.of_nodes_eq rfl rfl)
    exact (List.nodup_cons.1 h.nodup).1 (List.mem_map.2 ⟨other, hmem, hid.symm⟩)

/-- Once a lock has been released its marker is gone, unless the system fails to take it away. -/
theorem inspect_release (h : Held (lock :: locks) world.disk)
    (hcalm : world.faults world.steps .unlinkMarker = none) :
    (lock.release.outcome world).2.disk.inspect lock.marker = .error .notFound := by
  obtain ⟨location, hmarks⟩ := h.marks lock List.mem_cons_self
  obtain ⟨dir, hmarker, hplaces⟩ := hmarks.exists_dir
  obtain ⟨file, hfile, -⟩ := hmarks.exists_file
  rw [disk_release hmarks, hcalm, hmarker, markerPath_eq]
  have hkept : world.disk.Kept
      ((world.disk.erase (location ++ [markerName])).release lock.file) :=
    ⟨rfl, (Disk.Kept.erase (by simp [hfile])).directory⟩
  refine Disk.inspect_join_of_none isFileName_markerName (hkept.places hplaces) ?_
  exact Disk.node?_erase_self (by simp)

end Held

end Custody.DirectoryLock
