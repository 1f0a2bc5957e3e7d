import Custody.Disk.Basic
import Custody.Proofs.Path

set_option autoImplicit false

/-! # Files of a directory

What operations on a file of a directory do to the other files of that directory. A path of a file
leads through the directory (`Disk.walk`) to the name in it (`Disk.inspect_join`), and goes on doing
so as long as no directory goes away (`Disk.Kept.walk`). An operation spares a file if what can be
seen at its path is the same afterwards (`Disk.Spares`). Files are moved only to paths that are such
paths themselves (`Disk.exists_join_of_rename`). -/

namespace Custody.Disk

variable {disk disk' disk₁ : Disk} {dir : Path} {name other : Bytes} {parent location : Location}
  {node : Node}

/-! ## Answers in steps -/

section Steps

variable {ε α β : Type}

/-- Two steps answer only if the first does and the second then does. -/
theorem exists_of_bind_eq_ok {x : Except ε α} {f : α → Except ε β} {b : β}
    (h : (x >>= f) = .ok b) : ∃ a, x = .ok a ∧ f a = .ok b := by
  cases x with
  | error error => exact absurd h (by simp [bind, Except.bind])
  | ok a => exact ⟨a, rfl, h⟩

@[simp] theorem throw_ne_ok {error : ε} {a : α} : (throw error : Except ε α) ≠ .ok a := by
  simp [throw, throwThe, MonadExceptOf.throw]

end Steps

/-! ## Ways -/

/-- The location that the path of a directory leads to. -/
def walk (disk : Disk) (dir : Path) : Except IoError Location :=
  dir.components.foldlM disk.enter (if dir.isAbsolute then [] else disk.home)

/-- What keeps a path from being handed to the system, before it is looked up. -/
def refusal? (path : Path) : Option IoError :=
  if path.bytes.contains 0 then some .nulInPath
  else if path.bytes = [] then some .notFound
  else if pathLimit ≤ path.bytes.length then some .nameTooLong
  else none

/-- A path leads through its directory to its last component. -/
theorem locate_eq (path : Path) (disk : Disk) : disk.locate path =
    match refusal? path with
    | some error => .error error
    | none =>
      (path.components.dropLast.foldlM disk.enter
          (if path.isAbsolute then [] else disk.home)).map fun parent =>
        match path.components.getLast? with
        | none => ⟨parent, none, true⟩
        | some last =>
          if last = Path.here then ⟨parent, none, true⟩
          else if last = Path.above then ⟨parent.dropLast, none, true⟩
          else ⟨parent, some last, path.bytes.getLast? = some Path.slash⟩ := by
  unfold locate refusal?
  by_cases hzero : path.bytes.contains 0 = true
  · rw [if_pos hzero, if_pos hzero]
    rfl
  · rw [if_neg hzero, if_neg hzero]
    by_cases hnil : path.bytes = []
    · rw [if_pos hnil]
      simp only [hnil, if_true]
      rfl
    · rw [if_neg hnil]
      by_cases hlong : pathLimit ≤ path.bytes.length
      · rw [if_pos hlong]
        simp only [hnil, hlong, if_true, if_false]
        rfl
      · rw [if_neg hlong]
        simp only [hnil, hlong, if_false]
        generalize path.components.dropLast.foldlM disk.enter
          (if path.isAbsolute then [] else disk.home) = walked
        cases walked with
        | error error => rfl
        | ok parent =>
          cases path.components.getLast? with
          | none => rfl
          | some last =>
            simp only [bind, Except.bind, Except.map, pure, Except.pure]
            split
            · rfl
            · split <;> rfl

/-- A path of a file in a directory leads to the name in the directory. -/
theorem locate_join (h : Path.IsFileName name) (hfine : refusal? (dir.join ⟨name⟩) = none) :
    disk.locate (dir.join ⟨name⟩) =
      (disk.walk dir).map fun parent => ⟨parent, some name, false⟩ := by
  rw [locate_eq, hfine, Path.components_join h, Path.isAbsolute_join h, List.dropLast_concat,
    List.getLast?_concat]
  simp only [h.ne_here, h.ne_above, if_false, Path.getLast?_join_ne h, decide_false]
  rfl

theorem locate_join_of_refusal {error : IoError}
    (hfault : refusal? (dir.join ⟨name⟩) = some error) :
    disk.locate (dir.join ⟨name⟩) = .error error := by
  rw [locate_eq, hfault]

/-- What a path of a file in a directory leads to, if to anything. -/
theorem locate_join_eq_ok (h : Path.IsFileName name) {target : Target}
    (hlocate : disk.locate (dir.join ⟨name⟩) = .ok target) :
    refusal? (dir.join ⟨name⟩) = none ∧ ∃ parent, disk.walk dir = .ok parent ∧
      target = ⟨parent, some name, false⟩ := by
  cases hfine : refusal? (dir.join ⟨name⟩) with
  | some error =>
    rw [locate_join_of_refusal hfine] at hlocate
    exact absurd hlocate (by simp)
  | none =>
    rw [locate_join h hfine] at hlocate
    cases hwalk : disk.walk dir with
    | error error =>
      rw [hwalk] at hlocate
      exact absurd hlocate (by simp [Except.map])
    | ok parent =>
      rw [hwalk] at hlocate
      cases hlocate
      exact ⟨rfl, parent, rfl, rfl⟩

/-- Where a file in a directory lies, and that its path can be used. -/
structure Places (disk : Disk) (dir : Path) (name : Bytes) (parent : Location) : Prop where
  refusal_eq : refusal? (dir.join ⟨name⟩) = none
  short : name.length ≤ maxName
  walk_eq : disk.walk dir = .ok parent

/-- What is looked up at the path of a file in a directory lies at its place. -/
theorem lookup_eq_ok {found : Option Node}
    (h : disk.lookup ⟨parent, some name, false⟩ = .ok found) :
    name.length ≤ maxName ∧ disk.node? (parent ++ [name]) = found := by
  unfold lookup at h
  dsimp only at h
  split at h
  · exact absurd h (by simp)
  · exact ⟨Nat.le_of_not_lt ‹_›, Except.ok.inj h⟩

/-- What can be seen at the path of a file in a directory is what lies at its place. -/
theorem inspect_join (h : Path.IsFileName name) : disk.inspect (dir.join ⟨name⟩) = .ok node ↔
    ∃ parent, disk.Places dir name parent ∧ disk.node? (parent ++ [name]) = some node := by
  constructor
  · intro hinspect
    obtain ⟨target, hlocate, hinspect⟩ := exists_of_bind_eq_ok hinspect
    obtain ⟨hfine, parent, hwalk, rfl⟩ := locate_join_eq_ok h hlocate
    obtain ⟨found, hlookup, hinspect⟩ := exists_of_bind_eq_ok hinspect
    obtain ⟨hshort, hnode⟩ := lookup_eq_ok hlookup
    refine ⟨parent, ⟨hfine, hshort, hwalk⟩, hnode.trans ?_⟩
    match found with
    | none => exact absurd hinspect throw_ne_ok
    | some (.file file) =>
      cases hinspect
      rfl
    | some .directory =>
      cases hinspect
      rfl
  · rintro ⟨parent, hplaces, hnode⟩
    unfold inspect
    rw [locate_join h hplaces.refusal_eq, hplaces.walk_eq]
    simp only [Except.map, bind, Except.bind, lookup, if_neg (Nat.not_lt.2 hplaces.short),
      Target.location, hnode]
    cases node <;> rfl

/-- Where the way to a file can be gone and nothing lies, nothing is found. -/
theorem inspect_join_of_none (h : Path.IsFileName name) (hplaces : disk.Places dir name parent)
    (hnode : disk.node? (parent ++ [name]) = none) :
    disk.inspect (dir.join ⟨name⟩) = .error .notFound := by
  unfold inspect
  rw [locate_join h hplaces.refusal_eq, hplaces.walk_eq]
  simp only [Except.map, bind, Except.bind, lookup, if_neg (Nat.not_lt.2 hplaces.short),
    Target.location, hnode]
  rfl

/-- Paths of one file in a directory lead through the same directory. -/
theorem walk_eq_of_join_eq {dir' : Path} (h : Path.IsFileName name)
    (hjoin : dir.join ⟨name⟩ = dir'.join ⟨name⟩) : disk.walk dir = disk.walk dir' := by
  unfold walk
  rw [(Path.join_inj h h hjoin).1, ← Path.isAbsolute_join h dir, hjoin, Path.isAbsolute_join h dir']

/-! ## What stays -/

theorem node?_put_self (h : location ≠ []) :
    (disk.put location node).node? location = some node := by
  unfold node? put
  rw [if_neg h]
  exact Std.ExtTreeMap.getElem?_insert_self

theorem node?_put_of_ne {location' : Location} (h : location' ≠ location) :
    (disk.put location node).node? location' = disk.node? location' := by
  unfold node? put
  split
  · rfl
  · rw [Std.ExtTreeMap.getElem?_insert, if_neg]
    exact fun heq => h (Std.LawfulEqOrd.eq_of_compare heq).symm

theorem node?_erase_of_ne {location' : Location} (h : location' ≠ location) :
    (disk.erase location).node? location' = disk.node? location' := by
  unfold node? erase
  split
  · rfl
  · rw [Std.ExtTreeMap.getElem?_erase, if_neg]
    exact fun heq => h (Std.LawfulEqOrd.eq_of_compare heq).symm

/-- No directory has gone away. -/
structure Kept (disk disk' : Disk) : Prop where
  home_eq : disk'.home = disk.home
  directory : ∀ location, disk.node? location = some .directory →
    disk'.node? location = some .directory

theorem Kept.enter (h : disk.Kept disk') {component : Bytes} {location' : Location}
    (henter : disk.enter location component = .ok location') :
    disk'.enter location component = .ok location' := by
  unfold Disk.enter at henter ⊢
  split at henter
  · rwa [if_pos ‹_›]
  · rw [if_neg ‹_›]
    split at henter
    · rwa [if_pos ‹_›]
    · rw [if_neg ‹_›]
      split at henter
      · exact absurd henter (by simp)
      · rw [if_neg ‹_›]
        cases hnode : disk.node? (location ++ [component]) with
        | none =>
          rw [hnode] at henter
          exact absurd henter (by simp)
        | some node =>
          rw [hnode] at henter
          cases node with
          | file file => exact absurd henter (by simp)
          | directory =>
            rw [h.directory _ hnode]
            exact henter

theorem Kept.foldlM_enter (h : disk.Kept disk') {components : List Bytes}
    {location' : Location} (hwalk : components.foldlM disk.enter location = .ok location') :
    components.foldlM disk'.enter location = .ok location' := by
  induction components generalizing location with
  | nil => exact hwalk
  | cons component rest ih =>
    rw [List.foldlM_cons] at hwalk ⊢
    obtain ⟨next, henter, hwalk⟩ := exists_of_bind_eq_ok hwalk
    rw [h.enter henter]
    exact ih hwalk

/-- The way through directories goes where it went. -/
theorem Kept.walk (h : disk.Kept disk') (hwalk : disk.walk dir = .ok parent) :
    disk'.walk dir = .ok parent := by
  unfold Disk.walk at hwalk ⊢
  rw [h.home_eq]
  exact h.foldlM_enter hwalk

theorem Kept.places (h : disk.Kept disk') (hplaces : disk.Places dir name parent) :
    disk'.Places dir name parent :=
  ⟨hplaces.refusal_eq, hplaces.short, h.walk hplaces.walk_eq⟩

theorem Kept.put (h : disk.node? location = some .directory → node = .directory) :
    disk.Kept (disk.put location node) := by
  refine ⟨rfl, ?_⟩
  intro location' hnode
  by_cases heq : location' = location
  · subst heq
    -- the root is a directory without being a node that could be put
    by_cases hroot : location' = []
    · rw [hroot]
      rfl
    · rw [node?_put_self hroot, h hnode]
  · rw [node?_put_of_ne heq, hnode]

theorem Kept.erase (h : disk.node? location ≠ some .directory) :
    disk.Kept (disk.erase location) := by
  refine ⟨rfl, ?_⟩
  intro location' hnode
  rw [node?_erase_of_ne, hnode]
  rintro rfl
  exact h hnode

/-- What can be seen at the path is still there, the same as it was. -/
def Spares (path : Path) (disk disk' : Disk) : Prop :=
  ∀ node, disk.inspect path = .ok node → disk'.inspect path = .ok node

theorem Spares.refl (path : Path) (disk : Disk) : Spares path disk disk := fun _ h => h

theorem Spares.of_eq {path : Path} {disk disk' : Disk} (h : disk' = disk) :
    Spares path disk disk' := by
  rw [h]
  exact Spares.refl path disk

theorem Spares.trans {path : Path} (h : Spares path disk disk₁) (h' : Spares path disk₁ disk') :
    Spares path disk disk' := fun node hnode => h' node (h node hnode)

/-- A file is spared if no directory goes away and its own place is left alone. -/
theorem Kept.spares (h : disk.Kept disk') (hname : Path.IsFileName name)
    (hplace : ∀ parent node, disk.walk dir = .ok parent →
      disk.node? (parent ++ [name]) = some node → disk'.node? (parent ++ [name]) = some node) :
    Spares (dir.join ⟨name⟩) disk disk' := by
  intro node hinspect
  rw [inspect_join hname] at hinspect ⊢
  obtain ⟨parent, hplaces, hnode⟩ := hinspect
  exact ⟨parent, h.places hplaces, hplace parent node hplaces.walk_eq hnode⟩

/-! ## Files written and moved -/

/-- Whether a new file may lie at the place: there is no directory. -/
def IsFree (disk : Disk) (location : Location) : Prop := disk.node? location ≠ some .directory

theorem IsFree.kept_put (h : disk.IsFree location) : disk.Kept (disk.put location node) :=
  Kept.put fun hnode => absurd hnode h

theorem concat_ne (h : other ≠ name) (parent' parent : Location) :
    parent' ++ [other] ≠ parent ++ [name] :=
  fun heq => h (List.singleton_inj.1 (List.append_inj' heq rfl).2)

/-- A file that has been put in a directory is seen there. -/
theorem inspect_put (h : Path.IsFileName name) (hplaces : disk.Places dir name parent)
    (hfree : disk.IsFree (parent ++ [name])) :
    (disk.put (parent ++ [name]) node).inspect (dir.join ⟨name⟩) = .ok node :=
  (inspect_join h).2 ⟨parent, hfree.kept_put.places hplaces, node?_put_self (by simp)⟩

/-- A file that has been put in a directory leaves the others alone. -/
theorem spares_put (h : Path.IsFileName other) (hother : other ≠ name)
    (hwalk : disk.walk dir = .ok parent) (hfree : disk.IsFree (parent ++ [name])) :
    Spares (dir.join ⟨other⟩) disk (disk.put (parent ++ [name]) node) := by
  refine hfree.kept_put.spares h ?_
  intro parent' node' hwalk' hnode
  rw [hwalk] at hwalk'
  cases hwalk'
  rw [node?_put_of_ne (concat_ne hother _ _), hnode]

theorem spares_erase (h : Path.IsFileName other) (hother : other ≠ name)
    (hwalk : disk.walk dir = .ok parent) (hfree : disk.IsFree (parent ++ [name])) :
    Spares (dir.join ⟨other⟩) disk (disk.erase (parent ++ [name])) := by
  refine (Kept.erase hfree).spares h ?_
  intro parent' node' hwalk' hnode
  rw [hwalk] at hwalk'
  cases hwalk'
  rw [node?_erase_of_ne (concat_ne hother _ _), hnode]

/-- The disk is another one with a file in a directory written. -/
def Wrote (dir : Path) (name : Bytes) (file : File) (disk disk' : Disk) : Prop :=
  ∃ parent, disk.Places dir name parent ∧ disk.IsFree (parent ++ [name]) ∧
    disk'.nodes = (disk.put (parent ++ [name]) (.file file)).nodes ∧ disk'.home = disk.home

section Wrote

variable {file : File}

theorem inspect_congr (hnodes : disk'.nodes = disk.nodes) (hhome : disk'.home = disk.home)
    (path : Path) : disk'.inspect path = disk.inspect path := by
  obtain ⟨nodes, home, nextId, locked⟩ := disk
  obtain ⟨nodes', home', nextId', locked'⟩ := disk'
  cases hnodes
  cases hhome
  rfl

theorem Wrote.inspect_eq (h : Wrote dir name file disk disk') (hname : Path.IsFileName name) :
    disk'.inspect (dir.join ⟨name⟩) = .ok (.file file) := by
  obtain ⟨parent, hplaces, hfree, hnodes, hhome⟩ := h
  rw [inspect_congr hnodes hhome]
  exact inspect_put hname hplaces hfree

theorem Wrote.spares (h : Wrote dir name file disk disk') (hother : Path.IsFileName other)
    (hne : other ≠ name) : Spares (dir.join ⟨other⟩) disk disk' := by
  obtain ⟨parent, hplaces, hfree, hnodes, hhome⟩ := h
  intro node hnode
  rw [inspect_congr hnodes hhome]
  exact spares_put hother hne hplaces.walk_eq hfree node hnode

end Wrote

/-- Opening a file in a directory for writing writes it, and answers with its identity. -/
theorem create_join (h : Path.IsFileName name) {mode : Nat} {id : FileId}
    (hcreate : disk.create (dir.join ⟨name⟩) mode = .ok (id, disk')) :
    ∃ file, file.id = id ∧ Wrote dir name file disk disk' := by
  obtain ⟨target, hlocate, hcreate⟩ := exists_of_bind_eq_ok hcreate
  obtain ⟨hfine, parent, hwalk, rfl⟩ := locate_join_eq_ok h hlocate
  obtain ⟨found, hlookup, hcreate⟩ := exists_of_bind_eq_ok hcreate
  obtain ⟨hshort, hnode⟩ := lookup_eq_ok hlookup
  have hplaces : disk.Places dir name parent := ⟨hfine, hshort, hwalk⟩
  match found with
  | some .directory => exact absurd hcreate throw_ne_ok
  | some (.file file) =>
    cases hcreate
    exact ⟨{ file with content := [] }, rfl, parent, hplaces, by simp [IsFree, hnode], rfl, rfl⟩
  | none =>
    cases hcreate
    exact ⟨_, rfl, parent, hplaces, by simp [IsFree, hnode], rfl, rfl⟩

theorem write_join (h : Path.IsFileName name) {content : Bytes}
    (hwrite : disk.write (dir.join ⟨name⟩) content = .ok disk') :
    ∃ file, file.content = content ∧ Wrote dir name file disk disk' := by
  obtain ⟨target, hlocate, hwrite⟩ := exists_of_bind_eq_ok hwrite
  obtain ⟨hfine, parent, hwalk, rfl⟩ := locate_join_eq_ok h hlocate
  obtain ⟨found, hlookup, hwrite⟩ := exists_of_bind_eq_ok hwrite
  obtain ⟨hshort, hnode⟩ := lookup_eq_ok hlookup
  match found with
  | some .directory => exact absurd hwrite throw_ne_ok
  | none => exact absurd hwrite throw_ne_ok
  | some (.file file) =>
    cases hwrite
    exact ⟨_, rfl, parent, ⟨hfine, hshort, hwalk⟩, by simp [IsFree, hnode], rfl, rfl⟩

/-- A file in a directory can be opened for writing where no directory lies in its place. -/
theorem exists_create_join (h : Path.IsFileName name) (hplaces : disk.Places dir name parent)
    (hfree : disk.IsFree (parent ++ [name])) (mode : Nat) :
    ∃ id disk', disk.create (dir.join ⟨name⟩) mode = .ok (id, disk') := by
  unfold create
  rw [locate_join h hplaces.refusal_eq, hplaces.walk_eq]
  simp only [Except.map, bind, Except.bind, lookup, if_neg (Nat.not_lt.2 hplaces.short),
    Target.location, Bool.false_eq_true, if_false]
  cases hnode : disk.node? (parent ++ [name]) with
  | none => exact ⟨_, _, rfl⟩
  | some node =>
    cases node with
    | file file => exact ⟨_, _, rfl⟩
    | directory => exact absurd hnode hfree

theorem unlink_join (h : Path.IsFileName name) (hplaces : disk.Places dir name parent) {file : File}
    (hnode : disk.node? (parent ++ [name]) = some (.file file)) :
    disk.unlink (dir.join ⟨name⟩) = .ok (disk.erase (parent ++ [name])) := by
  unfold unlink
  rw [locate_join h hplaces.refusal_eq, hplaces.walk_eq]
  simp only [Except.map, bind, Except.bind, lookup, if_neg (Nat.not_lt.2 hplaces.short),
    Target.location, hnode]
  rfl

/-- A file that is seen at a path is what the path leads to. -/
theorem exists_of_inspect_file {path : Path} {file : File}
    (h : disk.inspect path = .ok (.file file)) :
    ∃ target, disk.locate path = .ok target ∧ disk.lookup target = .ok (some (.file file)) := by
  obtain ⟨target, hlocate, h⟩ := exists_of_bind_eq_ok h
  obtain ⟨found, hlookup, h⟩ := exists_of_bind_eq_ok h
  refine ⟨target, hlocate, hlookup.trans ?_⟩
  match found with
  | none => exact absurd h throw_ne_ok
  | some .directory => exact absurd h (by simp [pure, Except.pure])
  | some (.file file') =>
    dsimp only at h
    split at h
    · exact absurd h throw_ne_ok
    · cases h
      rfl

/-- What moving a file does: the path that it is moved to leads to a name, and the file lies there
    afterwards, unless a directory does. -/
theorem exists_of_rename {source destination : Path} {file : File}
    (hfile : disk.inspect source = .ok (.file file))
    (hrename : disk.rename source destination = .ok disk') :
    ∃ old new name occupant, disk.locate source = .ok old ∧
      disk.locate destination = .ok ⟨new, some name, false⟩ ∧
      disk.lookup ⟨new, some name, false⟩ = .ok occupant ∧
      ((old.location = new ++ [name] ∧ disk' = disk) ∨ (occupant ≠ some .directory ∧
        disk' = (disk.erase old.location).put (new ++ [name]) (.file file))) := by
  unfold rename at hrename
  split at hrename
  · exact absurd hrename throw_ne_ok
  · obtain ⟨old, hold, hrename⟩ := exists_of_bind_eq_ok hrename
    obtain ⟨⟨new, name?, slashed⟩, hnew, hrename⟩ := exists_of_bind_eq_ok hrename
    by_cases hbusy : old.name? = none ∨ name? = none
    · rw [if_pos hbusy] at hrename
      exact absurd hrename throw_ne_ok
    · rw [if_neg hbusy] at hrename
      obtain ⟨found, hlookup, hrename⟩ := exists_of_bind_eq_ok hrename
      obtain ⟨old', hold', hlookup'⟩ := exists_of_inspect_file hfile
      rw [hold] at hold'
      cases hold'
      rw [hlookup] at hlookup'
      cases hlookup'
      obtain ⟨occupant, hoccupant, hrename⟩ := exists_of_bind_eq_ok hrename
      by_cases hslash : Node.file file ≠ .directory ∧ (old.slashed = true ∨ slashed = true)
      · rw [if_pos hslash] at hrename
        exact absurd hrename throw_ne_ok
      · rw [if_neg hslash] at hrename
        obtain ⟨name, rfl⟩ := Option.ne_none_iff_exists'.1 fun hnone => hbusy (.inr hnone)
        obtain rfl : slashed = false :=
          Bool.eq_false_iff.2 fun hslashed => hslash ⟨by simp, .inr hslashed⟩
        refine ⟨old, new, name, occupant, hold, hnew, hoccupant, ?_⟩
        dsimp only at hrename
        split at hrename
        · exact absurd hrename throw_ne_ok
        · split at hrename
          · exact absurd hrename throw_ne_ok
          · split at hrename
            · rename_i hsame
              cases hrename
              exact .inl ⟨hsame, rfl⟩
            · match occupant with
              | some .directory => exact absurd hrename throw_ne_ok
              | some (.file old') =>
                cases hrename
                exact .inr ⟨by simp, rfl⟩
              | none =>
                cases hrename
                exact .inr ⟨by simp, rfl⟩

/-- A file that is moved within its directory takes the place of another file or a free one. -/
theorem rename_join_eq_ok (h : Path.IsFileName name) (hother : Path.IsFileName other)
    (hne : other ≠ name) {file : File}
    (hfile : disk.inspect (dir.join ⟨name⟩) = .ok (.file file))
    (hrename : disk.rename (dir.join ⟨name⟩) (dir.join ⟨other⟩) = .ok disk') :
    ∃ parent, disk.Places dir name parent ∧ disk.Places dir other parent ∧
      disk.IsFree (parent ++ [name]) ∧ disk.IsFree (parent ++ [other]) ∧
      disk' = (disk.erase (parent ++ [name])).put (parent ++ [other]) (.file file) := by
  obtain ⟨parent, hplaces, hnode⟩ := (inspect_join h).1 hfile
  obtain ⟨old, new, name', occupant, hold, hnew, hlookup, hdone⟩ := exists_of_rename hfile hrename
  -- the way to either name leads through the same directory
  obtain ⟨-, _, hwalk, rfl⟩ := locate_join_eq_ok h hold
  obtain ⟨hfine, _, hwalk', hname⟩ := locate_join_eq_ok hother hnew
  cases hname
  rw [hplaces.walk_eq] at hwalk hwalk'
  cases hwalk
  cases hwalk'
  obtain ⟨hshort, hnode'⟩ := lookup_eq_ok hlookup
  rcases hdone with ⟨hsame, -⟩ | ⟨hfree, rfl⟩
  · exact absurd hsame.symm (concat_ne hne _ _)
  · exact ⟨parent, hplaces, ⟨hfine, hshort, hplaces.walk_eq⟩, by simp [IsFree, hnode],
      by simpa [IsFree, hnode'] using hfree, rfl⟩

/-- A file that has been moved is seen where it was moved to. -/
theorem inspect_rename_join (h : Path.IsFileName name) (hother : Path.IsFileName other)
    (hne : other ≠ name) {file : File}
    (hfile : disk.inspect (dir.join ⟨name⟩) = .ok (.file file))
    (hrename : disk.rename (dir.join ⟨name⟩) (dir.join ⟨other⟩) = .ok disk') :
    disk'.inspect (dir.join ⟨other⟩) = .ok (.file file) := by
  obtain ⟨parent, -, hplaces, hfree, hfree', rfl⟩ := rename_join_eq_ok h hother hne hfile hrename
  refine inspect_put hother ((Kept.erase hfree).places hplaces) ?_
  unfold IsFree at hfree' ⊢
  rwa [node?_erase_of_ne (concat_ne hne _ _)]

/-- A file that is neither moved nor replaced is spared. -/
theorem spares_rename_join (h : Path.IsFileName name) (hother : Path.IsFileName other)
    (hne : other ≠ name) {file : File} {third : Bytes}
    (hfile : disk.inspect (dir.join ⟨name⟩) = .ok (.file file))
    (hrename : disk.rename (dir.join ⟨name⟩) (dir.join ⟨other⟩) = .ok disk')
    (hthird : Path.IsFileName third) (hname : third ≠ name) (hother' : third ≠ other) :
    Spares (dir.join ⟨third⟩) disk disk' := by
  obtain ⟨parent, hplaces, -, hfree, hfree', rfl⟩ := rename_join_eq_ok h hother hne hfile hrename
  refine (spares_erase hthird hname hplaces.walk_eq hfree).trans ?_
  refine spares_put hthird hother' ((Kept.erase hfree).walk hplaces.walk_eq) ?_
  unfold IsFree at hfree' ⊢
  rwa [node?_erase_of_ne (concat_ne hne _ _)]

/-! ## Where files can be moved -/

theorem zero_notMem_of_locate {path : Path} {target : Target}
    (hlocate : disk.locate path = .ok target) : 0 ∉ path.bytes := by
  intro hzero
  rw [locate_eq, refusal?, if_pos (by simpa using hzero)] at hlocate
  exact absurd hlocate (by simp)

/-- A path that leads to a name is that of a file in a directory. -/
theorem exists_join_of_locate {path : Path}
    (hlocate : disk.locate path = .ok ⟨parent, some name, false⟩) :
    Path.IsFileName name ∧ ∃ dir : Path, path = dir.join ⟨name⟩ := by
  have hzero := zero_notMem_of_locate hlocate
  rw [locate_eq] at hlocate
  split at hlocate
  · exact absurd hlocate (by simp)
  · cases hwalk : path.components.dropLast.foldlM disk.enter
        (if path.isAbsolute then [] else disk.home) with
    | error error =>
      rw [hwalk] at hlocate
      exact absurd hlocate (by simp [Except.map])
    | ok middle =>
      rw [hwalk] at hlocate
      have htarget := Except.ok.inj hlocate
      cases hlast : path.components.getLast? with
      | none =>
        rw [hlast] at htarget
        exact absurd (congrArg Target.name? htarget) (by simp)
      | some last =>
        -- only a last component that stands for no directory is a name
        rw [hlast] at htarget
        dsimp only at htarget
        split at htarget
        · exact absurd (congrArg Target.name? htarget) (by simp)
        · rename_i hhere
          split at htarget
          · exact absurd (congrArg Target.name? htarget) (by simp)
          · rename_i habove
            obtain ⟨-, rfl, hslash⟩ := by simpa using htarget
            exact Path.exists_eq_join hzero hslash hlast hhere habove

/-- A file can be moved only to the path of a file in a directory. -/
theorem exists_join_of_rename {source destination : Path} {file : File}
    (hfile : disk.inspect source = .ok (.file file))
    (hrename : disk.rename source destination = .ok disk') :
    ∃ (dir : Path) (name : Bytes), Path.IsFileName name ∧ destination = dir.join ⟨name⟩ := by
  obtain ⟨-, _, name, -, -, hnew, -⟩ := exists_of_rename hfile hrename
  obtain ⟨hname, dir, hjoin⟩ := exists_join_of_locate hnew
  exact ⟨dir, name, hname, hjoin⟩

/-! ## Directories made -/

/-- What is found at a target lies there, unless it is a directory that goes without a name. -/
theorem node?_of_lookup {target : Target} {found : Option Node}
    (h : disk.lookup target = .ok found) (hfound : found ≠ some .directory) :
    disk.node? target.location = found := by
  unfold lookup at h
  split at h
  · exact absurd (Except.ok.inj h).symm hfound
  · split at h
    · exact absurd h (by simp)
    · exact Except.ok.inj h

/-- A new directory takes a place where nothing lies. -/
theorem exists_of_makeDirectory {path : Path} (hmake : disk.makeDirectory path = .ok disk') :
    ∃ location, disk.node? location = none ∧ disk' = disk.put location .directory := by
  obtain ⟨target, -, hmake⟩ := exists_of_bind_eq_ok hmake
  obtain ⟨found, hlookup, hmake⟩ := exists_of_bind_eq_ok hmake
  cases found with
  | some node => exact absurd hmake throw_ne_ok
  | none =>
    cases hmake
    exact ⟨_, node?_of_lookup hlookup (by simp), rfl⟩

/-- A new directory takes no place that is taken. -/
theorem spares_makeDirectory (h : Path.IsFileName name) {path : Path}
    (hmake : disk.makeDirectory path = .ok disk') : Spares (dir.join ⟨name⟩) disk disk' := by
  obtain ⟨location, hfree, rfl⟩ := exists_of_makeDirectory hmake
  refine (Kept.put fun _ => rfl).spares h ?_
  intro parent node hwalk hnode
  rwa [node?_put_of_ne]
  rintro heq
  rw [heq, hfree] at hnode
  exact absurd hnode (by simp)

theorem enter_eq_ok {component : Bytes} (h : disk.enter location component = .ok parent)
    (hhere : component ≠ Path.here) (habove : component ≠ Path.above) :
    component.length ≤ maxName ∧ disk.node? (location ++ [component]) = some .directory := by
  unfold enter at h
  rw [if_neg hhere, if_neg habove] at h
  split at h
  · exact absurd h (by simp)
  · refine ⟨Nat.le_of_not_lt ‹_›, ?_⟩
    cases hnode : disk.node? (location ++ [component]) with
    | none =>
      rw [hnode] at h
      exact absurd h (by simp)
    | some node =>
      rw [hnode] at h
      cases node with
      | file file => exact absurd h (by simp)
      | directory => rfl

/-- A directory that can be walked through is there. -/
theorem lookup_of_walk (hfine : refusal? dir = none) (hwalk : disk.walk dir = .ok parent) :
    ∃ target, disk.locate dir = .ok target ∧ disk.lookup target = .ok (some .directory) := by
  unfold walk at hwalk
  rw [locate_eq, hfine]
  dsimp only
  cases hlast : dir.components.getLast? with
  | none =>
    rw [List.getLast?_eq_none_iff.1 hlast]
    exact ⟨_, rfl, rfl⟩
  | some last =>
    -- walking enters the last component as well, which locating only names
    obtain ⟨front, hfront⟩ := List.getLast?_eq_some_iff.1 hlast
    rw [hfront, List.foldlM_append] at hwalk
    rw [hfront, List.dropLast_concat]
    obtain ⟨middle, hmiddle, hwalk⟩ := exists_of_bind_eq_ok hwalk
    rw [hmiddle]
    simp only [List.foldlM_cons, List.foldlM_nil, bind_pure] at hwalk
    by_cases hhere : last = Path.here
    · exact ⟨_, congrArg Except.ok (if_pos hhere), rfl⟩
    · by_cases habove : last = Path.above
      · exact ⟨_, congrArg Except.ok ((if_neg hhere).trans (if_pos habove)), rfl⟩
      · obtain ⟨hshort, hnode⟩ := enter_eq_ok hwalk hhere habove
        refine ⟨_, congrArg Except.ok ((if_neg hhere).trans (if_neg habove)), ?_⟩
        simp only [lookup, if_neg (Nat.not_lt.2 hshort), Target.location, hnode]

/-- A directory with a file in it can be handed to the system, unless it is the empty path. -/
theorem refusal_of_join (h : Path.IsFileName name) (hdir : dir.bytes ≠ [])
    (hfine : refusal? (dir.join ⟨name⟩) = none) : refusal? dir = none := by
  unfold refusal? at hfine ⊢
  simp only [List.contains_eq_mem, decide_eq_true_eq, Path.zero_mem_join h, Path.join_ne_nil h,
    if_false] at hfine
  simp only [List.contains_eq_mem, decide_eq_true_eq]
  split at hfine
  · exact absurd hfine (by simp)
  · rename_i hzero
    split at hfine
    · exact absurd hfine (by simp)
    · rename_i hlong
      have hlength := Path.length_le_length_join h dir
      rw [if_neg hzero, if_neg hdir, if_neg (by omega)]

/-- A directory that a file is seen in is there. -/
theorem exists_of_inspect (h : Path.IsFileName name) (hdir : dir.bytes ≠ [])
    (hinspect : disk.inspect (dir.join ⟨name⟩) = .ok node) :
    disk.makeDirectory dir = .error .alreadyExists ∧ disk.isDirectory dir = true := by
  obtain ⟨parent, hplaces, -⟩ := (inspect_join h).1 hinspect
  obtain ⟨target, hlocate, hlookup⟩ :=
    lookup_of_walk (refusal_of_join h hdir hplaces.refusal_eq) hplaces.walk_eq
  refine ⟨?_, ?_⟩
  · unfold makeDirectory
    rw [hlocate]
    simp only [bind, Except.bind, hlookup]
    rfl
  · unfold isDirectory inspect
    rw [hlocate]
    simp only [bind, Except.bind, hlookup]
    rfl

end Custody.Disk
