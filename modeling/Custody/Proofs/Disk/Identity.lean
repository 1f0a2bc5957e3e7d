import Custody.Proofs.Disk.Steps

set_option autoImplicit false

/-! # Files that stay the same file

A lock is held on a file and not on a path, so it matters which file lies where. On a sound disk
every file has an identity of its own (`Disk.Sound`). Most operations leave all files of a given
name where they are, whatever they do to the bytes of them, and leave the locks alone:
`Disk.Leaves`. -/

namespace Custody.Disk

variable {disk disk' disk₁ : Disk} {location location' parent : Location} {node : Node}
  {file : File} {name other : Bytes} {path dir : Path}

/-! ## Identities -/

/-- Every file has an identity of its own, and the next identity has not been given yet. -/
structure Sound (disk : Disk) : Prop where
  fresh : ∀ location file, disk.node? location = some (.file file) → file.id < disk.nextId
  unique : ∀ location location' file file', disk.node? location = some (.file file) →
    disk.node? location' = some (.file file') → file.id = file'.id → location = location'

/-- Where there are only directories, more directories may be put. -/
theorem eq_directory_of_foldl {locations : List Location} {nodes : Std.ExtTreeMap Location Node}
    (hnodes : ∀ (location : Location) (node : Node),
      nodes[location]? = some node → node = .directory)
    (h : (locations.foldl (fun nodes made => nodes.insert made .directory) nodes)[location]? =
      some node) : node = .directory := by
  induction locations generalizing nodes with
  | nil => exact hnodes location node h
  | cons made rest ih =>
    refine ih ?_ h
    intro location node hnode
    rw [Std.ExtTreeMap.getElem?_insert] at hnode
    split at hnode
    · exact (Option.some.inj hnode).symm
    · exact hnodes location node hnode

/-- An empty tree has nothing but directories. -/
theorem eq_directory_of_empty {home : Location} (h : (Disk.empty home).node? location = some node) :
    node = .directory := by
  unfold node? at h
  split at h
  · exact (Option.some.inj h).symm
  · exact eq_directory_of_foldl (by simp) h

theorem sound_empty (home : Location) : (Disk.empty home).Sound := by
  refine ⟨?_, ?_⟩
  · intro location file hfile
    exact absurd (eq_directory_of_empty hfile) (by simp)
  · intro location _ file _ hfile
    exact absurd (eq_directory_of_empty hfile) (by simp)

/-- A file that is found after a node has been put is that node, or was there before. -/
theorem node?_of_put (h : (disk.put location node).node? location' = some (.file file)) :
    (location' = location ∧ node = .file file) ∨
      (location' ≠ location ∧ disk.node? location' = some (.file file)) := by
  by_cases heq : location' = location
  · subst heq
    by_cases hroot : location' = []
    · rw [node?, if_pos hroot] at h
      exact absurd h (by simp)
    · rw [node?_put_self hroot] at h
      exact .inl ⟨rfl, Option.some.inj h⟩
  · rw [node?_put_of_ne heq] at h
    exact .inr ⟨heq, h⟩

theorem node?_erase_self (h : location ≠ []) : (disk.erase location).node? location = none := by
  unfold node? erase
  rw [if_neg h]
  exact Std.ExtTreeMap.getElem?_erase_self

theorem node?_of_erase (h : (disk.erase location).node? location' = some (.file file)) :
    location' ≠ location ∧ disk.node? location' = some (.file file) := by
  by_cases heq : location' = location
  · subst heq
    by_cases hroot : location' = []
    · rw [node?, if_pos hroot] at h
      exact absurd h (by simp)
    · rw [node?_erase_self hroot] at h
      exact absurd h (by simp)
  · rw [node?_erase_of_ne heq] at h
    exact ⟨heq, h⟩

theorem Sound.put_file (h : disk.Sound) (hfresh : file.id < disk.nextId)
    (hunique : ∀ location' file', location' ≠ location →
      disk.node? location' = some (.file file') → file'.id ≠ file.id) :
    (disk.put location (.file file)).Sound := by
  refine ⟨?_, ?_⟩
  · intro location₁ file₁ hfile₁
    rcases node?_of_put hfile₁ with ⟨-, heq⟩ | ⟨-, hfile₁⟩
    · cases heq
      exact hfresh
    · exact h.fresh _ _ hfile₁
  · intro location₁ location₂ file₁ file₂ hfile₁ hfile₂ hid
    rcases node?_of_put hfile₁ with ⟨heq, heq₁⟩ | ⟨hne₁, hfile₁⟩
    · rcases node?_of_put hfile₂ with ⟨heq', -⟩ | ⟨hne₂, hfile₂⟩
      · exact heq.trans heq'.symm
      · cases heq₁
        exact absurd hid.symm (hunique _ _ hne₂ hfile₂)
    · rcases node?_of_put hfile₂ with ⟨heq, heq₂⟩ | ⟨-, hfile₂⟩
      · cases heq₂
        exact absurd hid (hunique _ _ (heq ▸ hne₁) hfile₁)
      · exact h.unique _ _ _ _ hfile₁ hfile₂ hid

/-- Writing to a file leaves it the file that it is. -/
theorem Sound.rewrite (h : disk.Sound) (hfile : disk.node? location = some (.file file))
    (content : Bytes) : (disk.put location (.file { file with content })).Sound := by
  refine h.put_file (show file.id < disk.nextId from h.fresh _ _ hfile) ?_
  intro location' file' hne hfile' hid
  exact hne (h.unique _ _ _ _ hfile' hfile hid)

/-- A new file takes the next identity. -/
theorem Sound.make (h : disk.Sound) (location : Location) (mode : Nat) :
    Sound { disk.put location (.file ⟨disk.nextId, mode, []⟩) with
      nextId := disk.nextId + 1 } := by
  have hnext : Sound { disk with nextId := disk.nextId + 1 } :=
    ⟨fun location file hfile => Nat.lt_succ_of_lt (h.fresh location file hfile), h.unique⟩
  refine hnext.put_file (Nat.lt_succ_self _) ?_
  intro location' file' _ hfile'
  exact Nat.ne_of_lt (h.fresh location' file' hfile')

theorem Sound.put_directory (h : disk.Sound) : (disk.put location .directory).Sound := by
  have hfile : ∀ location' file,
      (disk.put location .directory).node? location' = some (.file file) →
      disk.node? location' = some (.file file) := by
    intro location' file hfile
    rcases node?_of_put hfile with ⟨-, heq⟩ | ⟨-, hfile⟩
    · exact absurd heq (by simp)
    · exact hfile
  exact ⟨fun _ _ h₁ => h.fresh _ _ (hfile _ _ h₁),
    fun _ _ _ _ h₁ h₂ => h.unique _ _ _ _ (hfile _ _ h₁) (hfile _ _ h₂)⟩

theorem Sound.erase (h : disk.Sound) : (disk.erase location).Sound :=
  ⟨fun _ _ h₁ => h.fresh _ _ (node?_of_erase h₁).2,
    fun _ _ _ _ h₁ h₂ => h.unique _ _ _ _ (node?_of_erase h₁).2 (node?_of_erase h₂).2⟩

/-- A file that is moved takes its identity along. -/
theorem Sound.move (h : disk.Sound) (hfile : disk.node? location = some (.file file)) :
    ((disk.erase location).put location' (.file file)).Sound := by
  refine h.erase.put_file (h.fresh _ _ hfile) ?_
  intro location₁ file₁ _ hfile₁ hid
  obtain ⟨hne, hfile₁⟩ := node?_of_erase hfile₁
  exact hne (h.unique _ _ _ _ hfile₁ hfile hid)

/-! ## Files that are left where they are -/

/-- The same file lies at the place, whatever its bytes are. -/
def Remains (location : Location) (disk disk' : Disk) : Prop :=
  ∀ file, disk.node? location = some (.file file) →
    ∃ file', disk'.node? location = some (.file file') ∧ file'.id = file.id

/-- No directory goes away, every file of the name stays the file that it is where it is, and the
    locks are the same. -/
structure Leaves (name : Bytes) (disk disk' : Disk) : Prop where
  kept : disk.Kept disk'
  remains : ∀ parent, Remains (parent ++ [name]) disk disk'
  sound : disk.Sound → disk'.Sound
  locked_eq : disk'.locked = disk.locked

namespace Leaves

theorem refl (name : Bytes) (disk : Disk) : Leaves name disk disk :=
  ⟨⟨rfl, fun _ h => h⟩, fun _ file h => ⟨file, h, rfl⟩, id, rfl⟩

theorem of_eq (h : disk' = disk) : Leaves name disk disk' := h ▸ refl name disk

theorem trans (h : Leaves name disk disk₁) (h' : Leaves name disk₁ disk') :
    Leaves name disk disk' := by
  refine ⟨⟨h'.kept.home_eq.trans h.kept.home_eq, ?_⟩, ?_, fun hsound => h'.sound (h.sound hsound),
    h'.locked_eq.trans h.locked_eq⟩
  · intro location hnode
    exact h'.kept.directory _ (h.kept.directory _ hnode)
  · intro parent file hfile
    obtain ⟨file₁, hfile₁, hid₁⟩ := h.remains parent file hfile
    obtain ⟨file', hfile', hid'⟩ := h'.remains parent file₁ hfile₁
    exact ⟨file', hfile', hid'.trans hid₁⟩

/-- What is put elsewhere is of no account. -/
theorem remains_put (h : ∀ file, disk.node? location = some (.file file) → location' ≠ location) :
    Remains location disk (disk.put location' node) := by
  intro file hfile
  exact ⟨file, by rw [node?_put_of_ne (h file hfile).symm, hfile], rfl⟩

theorem remains_rewrite (hfile : disk.node? location' = some (.file file)) (content : Bytes) :
    Remains location disk (disk.put location' (.file { file with content })) := by
  intro file₁ hfile₁
  by_cases heq : location = location'
  · subst heq
    rw [hfile] at hfile₁
    cases hfile₁
    refine ⟨_, node?_put_self ?_, rfl⟩
    rintro rfl
    exact absurd hfile (by simp [node?])
  · exact ⟨file₁, by rw [node?_put_of_ne heq, hfile₁], rfl⟩

/-- Writing to a file leaves every file what it is. -/
theorem rewrite (hfile : disk.node? location = some (.file file)) (content : Bytes) :
    Leaves name disk (disk.put location (.file { file with content })) :=
  ⟨IsFree.kept_put (by simp [IsFree, hfile]), fun _ => remains_rewrite hfile content,
    fun hsound => hsound.rewrite hfile content, rfl⟩

/-- So does making a file where there is nothing. -/
theorem make (hnode : disk.node? location = none) (mode : Nat) :
    Leaves name disk { disk.put location (.file ⟨disk.nextId, mode, []⟩) with
      nextId := disk.nextId + 1 } := by
  have hkept : disk.Kept (disk.put location (.file ⟨disk.nextId, mode, []⟩)) :=
    IsFree.kept_put (by simp [IsFree, hnode])
  refine ⟨⟨hkept.home_eq, hkept.directory⟩, ?_, fun hsound => hsound.make location mode, rfl⟩
  intro parent
  refine remains_put fun file hfile => ?_
  rintro rfl
  rw [hnode] at hfile
  exact absurd hfile (by simp)

theorem put_directory (hnode : disk.node? location = none) :
    Leaves name disk (disk.put location .directory) := by
  refine ⟨Kept.put fun _ => rfl, ?_, fun hsound => hsound.put_directory, rfl⟩
  intro parent
  refine remains_put fun file hfile => ?_
  rintro rfl
  rw [hnode] at hfile
  exact absurd hfile (by simp)

/-- Moving a file leaves those of another name than its old and its new one. -/
theorem move (hfile : disk.node? (parent ++ [other]) = some (.file file)) {parent' : Location}
    {other' : Bytes} (hfree : disk.IsFree (parent' ++ [other'])) (hne : other ≠ name)
    (hne' : other' ≠ name) : Leaves name disk
      ((disk.erase (parent ++ [other])).put (parent' ++ [other']) (.file file)) := by
  have hfree' : (disk.erase (parent ++ [other])).IsFree (parent' ++ [other']) := by
    by_cases heq : parent' ++ [other'] = parent ++ [other]
    · simp [IsFree, heq, node?_erase_self]
    · rwa [IsFree, node?_erase_of_ne heq]
  have hkept : disk.Kept (disk.erase (parent ++ [other])) := Kept.erase (by simp [hfile])
  have hkept' : (disk.erase (parent ++ [other])).Kept
      ((disk.erase (parent ++ [other])).put (parent' ++ [other']) (.file file)) := hfree'.kept_put
  refine ⟨⟨rfl, fun _ hnode => hkept'.directory _ (hkept.directory _ hnode)⟩, ?_,
    fun hsound => hsound.move hfile, rfl⟩
  intro parent₁ file₁ hfile₁
  refine ⟨file₁, ?_, rfl⟩
  rw [node?_put_of_ne (concat_ne hne'.symm _ _), node?_erase_of_ne (concat_ne hne.symm _ _), hfile₁]

end Leaves

/-! ## Operations at a path -/

/-- Opening a file empties it, or makes it. -/
theorem leaves_create {mode : Nat} {id : FileId}
    (hcreate : disk.create path mode = .ok (id, disk')) : Leaves name disk disk' := by
  obtain ⟨target, -, hcreate⟩ := exists_of_bind_eq_ok hcreate
  by_cases hslashed : target.slashed = true
  · rw [if_pos hslashed] at hcreate
    exact absurd hcreate throw_ne_ok
  · rw [if_neg hslashed] at hcreate
    obtain ⟨found, hlookup, hcreate⟩ := exists_of_bind_eq_ok hcreate
    match found with
    | some .directory => exact absurd hcreate throw_ne_ok
    | some (.file file) =>
      cases hcreate
      exact .rewrite (node?_of_lookup hlookup (by simp)) []
    | none =>
      cases hcreate
      exact .make (node?_of_lookup hlookup (by simp)) mode

theorem leaves_write {content : Bytes} (hwrite : disk.write path content = .ok disk') :
    Leaves name disk disk' := by
  obtain ⟨target, -, hwrite⟩ := exists_of_bind_eq_ok hwrite
  obtain ⟨found, hlookup, hwrite⟩ := exists_of_bind_eq_ok hwrite
  match found with
  | some .directory => exact absurd hwrite throw_ne_ok
  | none => exact absurd hwrite throw_ne_ok
  | some (.file file) =>
    cases hwrite
    exact .rewrite (node?_of_lookup hlookup (by simp)) content

theorem leaves_makeDirectory (hmake : disk.makeDirectory path = .ok disk') :
    Leaves name disk disk' := by
  obtain ⟨location, hfree, rfl⟩ := exists_of_makeDirectory hmake
  exact .put_directory hfree

/-- Moving a file within its directory leaves those of other names. -/
theorem leaves_rename_join {source destination : Bytes} (hsource : Path.IsFileName source)
    (hdestination : Path.IsFileName destination) (hne : destination ≠ source)
    (hfile : disk.inspect (dir.join ⟨source⟩) = .ok (.file file))
    (hrename : disk.rename (dir.join ⟨source⟩) (dir.join ⟨destination⟩) = .ok disk')
    (hother : source ≠ name) (hother' : destination ≠ name) : Leaves name disk disk' := by
  obtain ⟨parent, hplaces, -, -, hfree, rfl⟩ :=
    rename_join_eq_ok hsource hdestination hne hfile hrename
  obtain ⟨parent', hplaces', hnode⟩ := (inspect_join hsource).1 hfile
  obtain rfl : parent' = parent := Except.ok.inj (hplaces'.walk_eq.symm.trans hplaces.walk_eq)
  exact .move hnode hfree hother hother'

end Custody.Disk

namespace Custody.World

variable {world world' : World} {name : Bytes}

theorem leaves_writeFile {path : Path} {content : Bytes} {result : Except IoError Unit}
    (h : (writeFile path content).outcome world = (result, world')) :
    Disk.Leaves name world.disk world'.disk := by
  rcases write_of_writeFile h with ⟨hdisk, -⟩ | ⟨bytes, -, hwrite⟩
  · exact .of_eq hdisk
  · exact Disk.leaves_write hwrite

theorem leaves_makeDirectories (path : Path) : Relates (Disk.Leaves name) (makeDirectories path) :=
  relates_makeDirectories (Disk.Leaves.refl name) (fun _ _ _ => Disk.Leaves.trans)
    (fun _ _ _ => Disk.leaves_makeDirectory) path

end Custody.World
