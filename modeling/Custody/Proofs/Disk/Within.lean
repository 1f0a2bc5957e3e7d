import Custody.Proofs.DirectoryLock
import Custody.Proofs.Disk.Intact

set_option autoImplicit false

/-! # Disks that differ in some files of a directory

Of two disks one may have come from the other by making, replacing, moving and taking away files of
certain names that lie directly in a directory, and nothing else: `Disk.Within`. Saving a sealed copy
stays within the names of a file and of the temporary file beside it (`Envelope.within_save`), and a
directory lock within the name of the marker (`DirectoryLock.within_acquire`,
`DirectoryLock.within_release`), whatever fails on the way. -/

namespace Custody

namespace Disk

/-- The disks have the same directories, and lie apart in nothing but files of some names in one
    directory. -/
structure Within (dir : Path) (touched : Bytes → Prop) (disk disk' : Disk) : Prop where
  home_eq : disk'.home = disk.home
  directory_iff : ∀ location,
    disk'.node? location = some .directory ↔ disk.node? location = some .directory
  changed : ∀ location, disk'.node? location ≠ disk.node? location →
    ∃ parent name, disk.walk dir = .ok parent ∧ touched name ∧ location = parent ++ [name]

variable {dir : Path} {touched touched' : Bytes → Prop} {disk disk₁ disk' : Disk} {name : Bytes}
  {parent : Location} {file : File}

namespace Within

theorem of_node?_eq (hhome : disk'.home = disk.home)
    (h : ∀ location, disk'.node? location = disk.node? location) :
    Within dir touched disk disk' where
  home_eq := hhome
  directory_iff location := by rw [h]
  changed location hne := absurd (h location) hne

theorem of_eq (h : disk' = disk) : Within dir touched disk disk' :=
  .of_node?_eq (by rw [h]) fun location => by rw [h]

theorem mono (h : Within dir touched disk disk') (himp : ∀ name, touched name → touched' name) :
    Within dir touched' disk disk' where
  home_eq := h.home_eq
  directory_iff := h.directory_iff
  changed location hne := by
    obtain ⟨parent, name, hwalk, htouched, heq⟩ := h.changed location hne
    exact ⟨parent, name, hwalk, himp name htouched, heq⟩

/-- A path leads to the same directory on both disks. -/
theorem walk_iff (h : Within dir touched disk disk') :
    disk'.walk dir = .ok parent ↔ disk.walk dir = .ok parent := by
  have hkept : disk.Kept disk' := ⟨h.home_eq, fun location => (h.directory_iff location).2⟩
  have hkept' : disk'.Kept disk := ⟨h.home_eq.symm, fun location => (h.directory_iff location).1⟩
  exact ⟨hkept'.walk, hkept.walk⟩

theorem trans (h : Within dir touched disk disk₁) (h' : Within dir touched disk₁ disk') :
    Within dir touched disk disk' where
  home_eq := h'.home_eq.trans h.home_eq
  directory_iff location := (h'.directory_iff location).trans (h.directory_iff location)
  changed location hne := by
    by_cases hfirst : disk₁.node? location = disk.node? location
    · rw [← hfirst] at hne
      obtain ⟨parent, name, hwalk, htouched, heq⟩ := h'.changed location hne
      exact ⟨parent, name, h.walk_iff.1 hwalk, htouched, heq⟩
    · exact h.changed location hfirst

/-- A name that is not touched is that of the same files as before, in any directory. -/
theorem node?_eq (h : Within dir touched disk disk') (hname : ¬ touched name)
    (parent : Location) : disk'.node? (parent ++ [name]) = disk.node? (parent ++ [name]) := by
  by_contra hne
  obtain ⟨parent', name', -, htouched, heq⟩ := h.changed _ hne
  obtain ⟨-, hlast⟩ := List.append_inj' heq rfl
  exact hname (List.singleton_inj.1 hlast ▸ htouched)

theorem intact (h : Within dir touched disk disk') (hname : ¬ touched name) :
    Intact name disk disk' :=
  fun parent => .inl (h.node?_eq hname parent)

/-- One file has been put in the directory or taken away from it. -/
theorem of_single (hwalk : disk.walk dir = .ok parent) (htouched : touched name)
    (hfree : disk.IsFree (parent ++ [name])) (hfree' : disk'.IsFree (parent ++ [name]))
    (hhome : disk'.home = disk.home)
    (hothers : ∀ location, location ≠ parent ++ [name] →
      disk'.node? location = disk.node? location) : Within dir touched disk disk' where
  home_eq := hhome
  directory_iff location := by
    by_cases heq : location = parent ++ [name]
    · rw [heq]
      exact iff_of_false hfree' hfree
    · rw [hothers location heq]
  changed location hne := by
    by_cases heq : location = parent ++ [name]
    · exact ⟨parent, name, hwalk, htouched, heq⟩
    · exact absurd (hothers location heq) hne

end Within

theorem Wrote.within (h : Wrote dir name file disk disk') (htouched : touched name) :
    Within dir touched disk disk' := by
  have hkept := h.kept
  obtain ⟨parent, hplaces, hfree, hnode, hothers⟩ := h.node?
  exact .of_single hplaces.walk_eq htouched hfree (by simp [IsFree, hnode]) hkept.home_eq hothers

theorem within_erase (hwalk : disk.walk dir = .ok parent) (htouched : touched name)
    (hfree : disk.IsFree (parent ++ [name])) :
    Within dir touched disk (disk.erase (parent ++ [name])) := by
  refine .of_single hwalk htouched hfree ?_ rfl fun location hne => node?_erase_of_ne hne
  unfold IsFree
  rw [node?_erase_self (by simp)]
  simp

theorem within_put (hwalk : disk.walk dir = .ok parent) (htouched : touched name)
    (hfree : disk.IsFree (parent ++ [name])) :
    Within dir touched disk (disk.put (parent ++ [name]) (.file file)) := by
  refine .of_single hwalk htouched hfree ?_ rfl fun location hne => node?_put_of_ne hne
  unfold IsFree
  rw [node?_put_self (by simp)]
  simp

theorem within_create (h : Path.IsFileName name) (htouched : touched name) {mode : Nat}
    {id : FileId} (hcreate : disk.create (dir.join ⟨name⟩) mode = .ok (id, disk')) :
    Within dir touched disk disk' := by
  obtain ⟨file, -, hwrote⟩ := create_join h hcreate
  exact hwrote.within htouched

theorem within_rename {other : Bytes} (h : Path.IsFileName name) (hother : Path.IsFileName other)
    (hne : other ≠ name) (htouched : touched name) (htouched' : touched other)
    (hfile : disk.inspect (dir.join ⟨name⟩) = .ok (.file file))
    (hrename : disk.rename (dir.join ⟨name⟩) (dir.join ⟨other⟩) = .ok disk') :
    Within dir touched disk disk' := by
  obtain ⟨parent, hplaces, -, hfree, hfree', rfl⟩ := rename_join_eq_ok h hother hne hfile hrename
  have herased : Within dir touched disk (disk.erase (parent ++ [name])) :=
    within_erase hplaces.walk_eq htouched hfree
  refine herased.trans (within_put (herased.walk_iff.2 hplaces.walk_eq) htouched' ?_)
  unfold IsFree at hfree' ⊢
  rwa [node?_erase_of_ne (concat_ne hne _ _)]

/-- What is taken away at the path of a file in a directory is that file. -/
theorem within_unlink (h : Path.IsFileName name) (htouched : touched name)
    (hunlink : disk.unlink (dir.join ⟨name⟩) = .ok disk') : Within dir touched disk disk' := by
  obtain ⟨target, hlocate, hunlink⟩ := exists_of_bind_eq_ok hunlink
  obtain ⟨-, parent, hwalk, rfl⟩ := locate_join_eq_ok h hlocate
  obtain ⟨found, hlookup, hunlink⟩ := exists_of_bind_eq_ok hunlink
  obtain ⟨-, hnode⟩ := lookup_eq_ok hlookup
  match found with
  | none => exact absurd hunlink throw_ne_ok
  | some .directory => exact absurd hunlink throw_ne_ok
  | some (.file file) =>
    cases hunlink
    exact within_erase hwalk htouched (by simp [IsFree, hnode])

end Disk

variable {dir : Path} {touched : Bytes → Prop} {name : Bytes} {world world' : World}

theorem World.within_writeFile (h : Path.IsFileName name) (htouched : touched name)
    {content : Bytes} {result : Except IoError Unit}
    (hwrite : (writeFile (dir.join ⟨name⟩) content).outcome world = (result, world')) :
    Disk.Within dir touched world.disk world'.disk := by
  rcases writeFile_join h hwrite with ⟨hdisk, -⟩ | ⟨file, -, hwrote⟩
  · exact .of_eq hdisk
  · exact hwrote.within htouched

/-! ## Sealed copies -/

namespace Envelope

/-- The names of a file and of the temporary file beside it. -/
def IsOwnName (name last : Bytes) : Prop := last = name ∨ last = temporaryName name

theorem within_save (h : Path.IsFileName name) {envelope : Envelope}
    {result : Except EnvelopeFault Unit}
    (hsave : (envelope.save (dir.join ⟨name⟩)).outcome world = (result, world')) :
    Disk.Within dir (IsOwnName name) world.disk world'.disk := by
  have htemporary := isFileName_temporaryName h.slash_notMem h.zero_notMem
  have htouched : IsOwnName name (temporaryName name) := .inr rfl
  have hspec := save_spec envelope (dir.join ⟨name⟩) world
  rw [hsave] at hspec
  cases hspec with
  | uncreated hdisk => exact .of_eq hdisk
  | unwritten hcreate hwrite =>
    rw [temporaryPath_join h] at hcreate hwrite
    exact (Disk.within_create htemporary htouched hcreate).trans
      (World.within_writeFile htemporary htouched hwrite)
  | unmoved hcreate hwrite hdisk =>
    rw [temporaryPath_join h] at hcreate hwrite
    rw [hdisk]
    exact (Disk.within_create htemporary htouched hcreate).trans
      (World.within_writeFile htemporary htouched hwrite)
  | saved hcreate hwrite hrename =>
    rw [temporaryPath_join h] at hcreate hwrite hrename
    obtain ⟨file, -, hfile⟩ := exists_file_of_write htemporary hwrite
    exact ((Disk.within_create htemporary htouched hcreate).trans
      (World.within_writeFile htemporary htouched hwrite)).trans
      (Disk.within_rename htemporary h (temporaryName_ne name).symm htouched (.inl rfl) hfile
        hrename)

end Envelope

/-! ## Directory locks -/

namespace DirectoryLock

theorem within_acquire {result : Except Error DirectoryLock}
    (hacquire : (acquire dir).outcome world = (result, world')) :
    Disk.Within dir (· = markerName) world.disk world'.disk := by
  have hcreated : ∀ {id : FileId} {disk : Disk},
      world.disk.create (markerPath dir) markerMode = .ok (id, disk) →
      Disk.Within dir (· = markerName) world.disk disk :=
    fun hcreate => Disk.within_create isFileName_markerName rfl hcreate
  have hspec := acquire_spec dir world
  rw [hacquire] at hspec
  cases hspec with
  | unopened hfault hdisk => exact .of_eq hdisk
  | contended hcreate hlocked => exact hcreated hcreate
  | unseen hcreate hfault => exact hcreated hcreate
  | acquired hopen hcreate hfree hlook hdisk =>
    rw [hdisk]
    exact (hcreated hcreate).trans (.of_node?_eq rfl fun _ => rfl)

theorem within_release {lock : DirectoryLock} (hmarker : lock.marker = markerPath dir)
    (world : World) :
    Disk.Within dir (· = markerName) world.disk (lock.release.outcome world).2.disk := by
  unfold release
  rw [hmarker, Act.outcome_bind, Act.outcome_settled]
  rcases hunlink : (World.change .unlinkMarker (·.unlink (markerPath dir))).outcome world
    with ⟨error | _, world₁⟩
  · rw [← World.disk_of_attempt_error hunlink]
    exact .of_node?_eq rfl fun _ => rfl
  · have hwithin : Disk.Within dir (· = markerName) world.disk world₁.disk :=
      Disk.within_unlink isFileName_markerName rfl (World.disk_of_change_ok hunlink)
    exact hwithin.trans (.of_node?_eq rfl fun _ => rfl)

end DirectoryLock

end Custody
